import CableRegistry.Consistency
import CableRegistry.SideRule

/-!
# What the edges of a side cite

Where attachments prevail at a side, it has an edge for each port that a record of the highest
authority names.  Every such edge cites the same claims, those of all these records, and takes the
slot of the record at its own place in another list.  As long as all of them name one port, there
is one edge, and it cites its own evidence.  With two ports each edge cites a record that is
about the other port.

* `mem_edges_deriveSideView`, `mem_claims_sideEdge`, `slot_sideEdge`: the edges in closed form.
* `side_edges_cite_iff`: the edges of a side cite records about their own port, and have the slot of
  one of them, exactly when the binding records do not attach the side at two ports.
-/

open Std

namespace CableRegistry

/-! ### Citations -/

/-- The claim is that of a stored record, which attaches the side at the port. -/
structure Cites (s : RegistryState) (side : ObjectSideRef) (port : PortRef) (c : ClaimProvenance)
    (record : Folded SubjectValue) : Prop where
  stored : OrdMap.find₂ s.subjectRecords side ⟨c.source, c.incarnation⟩ = some record
  provenance : toProvenance record.metadata = c
  attached : record.value.attached = true
  port : record.value.port = port

/-- An edge cites records that attach its side at its port, and has the slot of one of them. -/
structure CitesOwn (s : RegistryState) (edge : AttachmentEdge) : Prop where
  claims : ∀ c ∈ edge.claims, ∃ record, Cites s edge.subject edge.port c record
  slot : ∃ c ∈ edge.claims, ∃ record, Cites s edge.subject edge.port c record ∧
    record.value.slot = edge.slot

/-- If all records that bind a side attach it, they attach it at one port. -/
def BindsOnePort (s : RegistryState) (subject : ObjectSideRef) (policy : ValidationPolicy) : Prop :=
  (∀ record ∈ bindingRecords s subject policy, record.2.value.attached = true) →
    ∀ record ∈ bindingRecords s subject policy, ∀ record' ∈ bindingRecords s subject policy,
      record'.2.value.port = record.2.value.port

variable {record : SideRecord}

section Edges

variable {s : RegistryState} {subject : ObjectSideRef} {policy : ValidationPolicy}

/-- A record says whose it is. -/
theorem Grounded.owner_of_subjectRecord {limits : Limits} {es : List Evidence} (h : Grounded limits es s)
    {owner : SourceIncarnationKey} {record : Folded SubjectValue}
    (hr : OrdMap.find₂ s.subjectRecords subject owner = some record) : record.metadata.owner = owner := by
  have hwinner : s.winner (.subject subject owner) =
      some (record.metadata.blur coreBlur, .subject record.value) := by
    simp [RegistryState.winner, RegistryState.lookup, hr, Folded.mapValue]
  exact h.owner_eq hwinner

theorem mem_edges_deriveSideView {edge : AttachmentEdge} :
    edge ∈ (deriveSideView s policy subject).edges ↔
      ∃ i port, (sidePorts s subject policy)[i]? = some port ∧
        edge = sideEdge s subject (sideDescriptorOf s subject.object subject.side)
          (deriveSubject s subject policy) i port := by
  obtain ⟨-, hports, -⟩ := deriveSubject_eq s subject policy
  unfold deriveSideView
  dsimp only
  rw [hports, List.mem_iff_getElem?]
  simp only [List.getElem?_mapIdx, Option.map_eq_some_iff]
  constructor
  · rintro ⟨i, port, hport, rfl⟩
    exact ⟨i, port, hport, rfl⟩
  · rintro ⟨i, port, hport, rfl⟩
    exact ⟨i, port, hport, rfl⟩

/-- What an edge cites, where attachments prevail. -/
theorem mem_claims_sideEdge (hwins : sideWins s subject policy true = true)
    {descriptor : ObjectSideDescriptor} {i : Nat} {port : PortRef} {c : ClaimProvenance} :
    c ∈ (sideEdge s subject descriptor (deriveSubject s subject policy) i port).claims ↔
      ∃ record ∈ bindingRecords s subject policy, toProvenance record.2.metadata = c := by
  obtain ⟨-, -, -, htop, -⟩ := deriveSubject_eq s subject policy
  unfold sideEdge
  dsimp only
  rw [mem_sortedClaims, htop, if_pos hwins, topAttachments_eq_binding hwins]
  simp only [mem_sortBy, List.mem_map]
  constructor
  · rintro ⟨a, ⟨record, hrecord, rfl⟩, hc⟩
    exact ⟨record, hrecord, hc⟩
  · rintro ⟨record, hrecord, hc⟩
    exact ⟨_, ⟨record, hrecord, rfl⟩, hc⟩

/-- The slot of an edge, where attachments prevail. -/
theorem slot_sideEdge (hwins : sideWins s subject policy true = true)
    (descriptor : ObjectSideDescriptor) (i : Nat) (port : PortRef) :
    (sideEdge s subject descriptor (deriveSubject s subject policy) i port).slot =
      ((bindingRecords s subject policy).map (·.2.value.slot)).getD i 0 := by
  obtain ⟨-, -, hslots, -⟩ := deriveSubject_eq s subject policy
  unfold sideEdge
  dsimp only
  rw [hslots, if_pos hwins, topAttachments_eq_binding hwins]

theorem find_of_binding (h : record ∈ bindingRecords s subject policy) :
    OrdMap.find₂ s.subjectRecords subject record.1 = some record.2 :=
  (mem_sideRecords.mp (mem_bindingRecords.mp h).1).2.1

section

variable
  (howner : ∀ owner record, OrdMap.find₂ s.subjectRecords subject owner = some record → record.metadata.owner = owner)

include howner

/-- A binding record is the one its claim cites. -/
theorem eq_of_cites {record : SideRecord} (h : record ∈ bindingRecords s subject policy)
    {port : PortRef} {cited : Folded SubjectValue}
    (hcites : Cites s subject port (toProvenance record.2.metadata) cited) : cited = record.2 := by
  have hfound := find_of_binding h
  have hkey := howner _ _ hfound
  have hstored := hcites.stored
  unfold toProvenance at hstored
  dsimp only at hstored
  rw [hkey] at hstored
  exact Option.some.inj (hstored.symm.trans hfound)

/-- A binding record that attaches the side at the port is cited there. -/
theorem cites_of_binding {record : SideRecord} (h : record ∈ bindingRecords s subject policy)
    (hattached : record.2.value.attached = true) :
    Cites s subject record.2.value.port (toProvenance record.2.metadata) record.2 := by
  have hfound := find_of_binding h
  have hkey := howner _ _ hfound
  refine ⟨?_, rfl, hattached, rfl⟩
  show OrdMap.find₂ s.subjectRecords subject
    ⟨record.2.metadata.owner.source, record.2.metadata.owner.incarnation⟩ = some record.2
  rw [hkey]
  exact hfound

/-- **The edges of a side cite their own evidence exactly when what binds the side is at one port.** -/
theorem citesOwn_iff :
    (∀ edge ∈ (deriveSideView s policy subject).edges, CitesOwn s edge) ↔
      BindsOnePort s subject policy := by
  constructor
  · intro hall hkind record hrecord record' hrecord'
    have hwins : sideWins s subject policy true = true :=
      sideWins_iff_binding.mpr ⟨List.ne_nil_of_mem hrecord, hkind⟩
    have hport : record.2.value.port ∈ sidePorts s subject policy := by
      rw [mem_sidePorts, topAttachments_eq_binding hwins]
      exact ⟨hwins, record, hrecord, rfl⟩
    obtain ⟨i, hi⟩ := List.mem_iff_getElem?.mp hport
    -- The edge at the port of the one record cites the other.
    have hown := hall _ (mem_edges_deriveSideView.mpr ⟨i, _, hi, rfl⟩)
    obtain ⟨cited, hcites⟩ := hown.claims _ ((mem_claims_sideEdge hwins).mpr ⟨record', hrecord', rfl⟩)
    rw [← eq_of_cites howner hrecord' hcites]
    exact hcites.port
  · intro hone edge hedge
    obtain ⟨i, port, hi, rfl⟩ := mem_edges_deriveSideView.mp hedge
    have hwins := (mem_sidePorts.mp (List.mem_of_getElem? hi)).1
    obtain ⟨hne, hkind⟩ := sideWins_iff_binding.mp hwins
    obtain ⟨first, hfirst⟩ := List.exists_mem_of_ne_nil _ hne
    have hports : sidePorts s subject policy = [first.2.value.port] :=
      sidePorts_eq_singleton hne fun record hrecord =>
        ⟨hkind record hrecord, hone hkind first hfirst record hrecord⟩
    rw [hports] at hi
    obtain ⟨rfl, rfl⟩ : i = 0 ∧ first.2.value.port = port := by
      cases i with
      | zero => exact ⟨rfl, Option.some.inj hi⟩
      | succ i => exact absurd hi (by simp)
    have hcites : ∀ record ∈ bindingRecords s subject policy,
        Cites s subject first.2.value.port (toProvenance record.2.metadata) record.2 := by
      intro record hrecord
      rw [← hone hkind first hfirst record hrecord]
      exact cites_of_binding howner hrecord (hkind record hrecord)
    refine ⟨fun c hc => ?_, ?_⟩
    · obtain ⟨record, hrecord, rfl⟩ := (mem_claims_sideEdge hwins).mp hc
      exact ⟨record.2, hcites record hrecord⟩
    · cases hbinding : bindingRecords s subject policy with
      | nil => exact absurd hbinding hne
      | cons head rest =>
        have hhead : head ∈ bindingRecords s subject policy := by
          rw [hbinding]
          exact List.mem_cons_self
        refine ⟨_, (mem_claims_sideEdge hwins).mpr ⟨head, hhead, rfl⟩, head.2, hcites head hhead, ?_⟩
        rw [slot_sideEdge hwins, hbinding]
        rfl

end

end Edges

/-! ### Queries -/

namespace Registry

/-- **Side edges cite their own evidence exactly when what binds the side is at one port.**  Of a
side that a query reports in a reachable state, every edge cites only stored records that attach
the side at the port of the edge, and has the slot of one of them, if and only if the records that
bind the side do not attach it at different ports. -/
theorem side_edges_cite_iff {r : Registry} {options : RegistryOptions} {requests : List Request}
    {es : List Evidence} (h : r.ReachedBy options requests es) {object : ObjectId}
    {query : QueryOptions} {view : ObjectView} (hview : r.queryObject object query = .ok view)
    {side : ObjectSideView} (hside : side ∈ view.sides) :
    (∀ edge ∈ side.edges, CitesOwn r.state edge) ↔
      BindsOnePort r.state ⟨object, side.side⟩ query.validationPolicy := by
  obtain ⟨-, -, -, -, id, openedAt, htrace⟩ := h.trace
  have hedges : side.edges =
      (deriveSideView r.state query.validationPolicy ⟨object, side.side⟩).edges :=
    congrArg ObjectSideView.edges (sides_queryObject hview hside)
  rw [hedges]
  exact citesOwn_iff fun owner record hr => htrace.consistent.grounded.owner_of_subjectRecord hr

/-- Two sources of one rank place a side of object 9 at the ports with the given indices. -/
def sampleRivals (index index' : PortIndex) : List Request :=
  [sampleOpen 1 1 5, sampleOpen 2 1 5, sampleIngest 1 1 1 (sampleObject 9),
    sampleIngest 1 1 2 (samplePlace 9 0 index 0), sampleIngest 2 1 1 (samplePlace 9 0 index' 1)]

/-- The first side of object 9 has an edge, and all that binds it is at the first port. -/
def sampleAgrees (r : Registry) : Bool :=
  (r.queryObject (.fromParts 0 9) {}).toOption.any (fun view => view.sides.any fun side =>
    side.side == 0 && !side.edges.isEmpty) &&
  (bindingRecords r.state ⟨.fromParts 0 9, 0⟩ .includeAll).all
    (·.2.value.port == ⟨.fromParts 0 7, 0⟩)

theorem side_edges_cite_iff_sample :
    ∃ (r : Registry) (es : List Evidence) (view : ObjectView) (side : ObjectSideView),
      r.ReachedBy {} (sampleRivals 0 0) es ∧ r.queryObject (.fromParts 0 9) {} = .ok view ∧
      side ∈ view.sides ∧ side.edges ≠ [] ∧ ∀ edge ∈ side.edges, CitesOwn r.state edge := by
  obtain ⟨r, es, hr, hp⟩ := exists_reached {} (sampleRivals 0 0)
    (fun r _ => sampleAgrees r) (by decide +kernel)
  obtain ⟨hedges, hports⟩ := Bool.and_eq_true_iff.mp hp
  obtain ⟨view, hview, hany⟩ := ok_of_toOption_any hedges
  obtain ⟨side, hside, hboth⟩ := List.any_eq_true.mp hany
  obtain ⟨hindex, hsome⟩ := Bool.and_eq_true_iff.mp hboth
  have hone : BindsOnePort r.state ⟨.fromParts 0 9, side.side⟩ ({} : QueryOptions).validationPolicy := by
    rw [beq_iff_eq.mp hindex]
    intro _ record hrecord record' hrecord'
    have hport := beq_iff_eq.mp (List.all_eq_true.mp hports record hrecord)
    have hport' := beq_iff_eq.mp (List.all_eq_true.mp hports record' hrecord')
    exact hport'.trans hport.symm
  refine ⟨r, es, view, side, hr, hview, hside, ?_, (side_edges_cite_iff hr hview hside).mpr hone⟩
  simpa using hsome

/-- An edge of object 9 cites a record about another port. -/
def sampleMiscites (r : Registry) : Bool :=
  (r.queryObject (.fromParts 0 9) {}).toOption.any fun view => view.sides.any fun side =>
    side.edges.any fun edge => edge.claims.any fun c =>
      (OrdMap.find₂ r.state.subjectRecords edge.subject ⟨c.source, c.incarnation⟩).any fun record =>
        record.value.port != edge.port

/-- Two sources disagree about the port: an edge cites a record that is about the other port. -/
theorem side_edge_cites_other_port :
    ∃ (r : Registry) (es : List Evidence) (view : ObjectView) (side : ObjectSideView)
      (edge : AttachmentEdge) (c : ClaimProvenance) (record : Folded SubjectValue),
      r.ReachedBy {} (sampleRivals 0 1) es ∧ r.queryObject (.fromParts 0 9) {} = .ok view ∧
      side ∈ view.sides ∧ edge ∈ side.edges ∧ c ∈ edge.claims ∧
      OrdMap.find₂ r.state.subjectRecords edge.subject ⟨c.source, c.incarnation⟩ = some record ∧
      record.value.port ≠ edge.port := by
  obtain ⟨r, es, hr, hp⟩ := exists_reached {} (sampleRivals 0 1)
    (fun r _ => sampleMiscites r) (by decide +kernel)
  obtain ⟨view, hview, hany⟩ := ok_of_toOption_any hp
  obtain ⟨side, hside, hany⟩ := List.any_eq_true.mp hany
  obtain ⟨edge, hedge, hany⟩ := List.any_eq_true.mp hany
  obtain ⟨c, hc, hany⟩ := List.any_eq_true.mp hany
  obtain ⟨record, hrecord, hport⟩ := (Option.any_eq_true _ _).mp hany
  exact ⟨r, es, view, side, edge, c, record, hr, hview, hside, hedge, hc, hrecord, bne_iff_ne.mp hport⟩

end Registry

end CableRegistry
