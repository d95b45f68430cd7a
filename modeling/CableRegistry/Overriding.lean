import CableRegistry.Frames

/-!
# A weaker source

The view of a port is decided by the live claims of the highest authority, and a side is
double booked only by the highest authority that speaks about it.  A source of a lower
authority can only change records of its own, and these carry its authority, so it changes
nothing but the lists of overridden claims: `weakerSource_settled`.

What makes the argument go through is `Paired`: the side of an edge has a live claim of the
edge's own authority, so a weaker claim about the side does not decide anything either.
-/

open Std (ExtTreeMap)

namespace CableRegistry

/-! ### Claims from an authority upwards -/

variable {a : Authority} {record : LiveRecord} {subject : ObjectSideRef}
  {owner : SourceIncarnationKey}

/-- The highest authority is known by the authorities from any of them upwards. -/
theorem bestAuthority_congr {l l' : List Authority} (h : ∀ b, a ≤ b → (b ∈ l' ↔ b ∈ l))
    (hex : ∃ b ∈ l, a ≤ b) : bestAuthority l' = bestAuthority l := by
  obtain ⟨b, hb, hab⟩ := hex
  have hle : a ≤ bestAuthority l := le_trans hab (le_bestAuthority hb)
  refine bestAuthority_eq ((h _ hle).mpr (bestAuthority_mem (List.ne_nil_of_mem hb))) ?_
  intro c hc
  rcases le_total c a with hca | hac
  · exact le_trans hca hle
  · exact le_bestAuthority ((h c hac).mp hc)

/-- The positions of an owner that is not fenced are weaker than an authority. -/
structure Weaker (s : RegistryState) (owner : SourceIncarnationKey) (a : Authority) : Prop where
  subject : sessionIsFenced s owner = false → ∀ subject f,
    OrdMap.find₂ s.subjectRecords subject owner = some f → f.metadata.authority < a
  port : sessionIsFenced s owner = false → ∀ port (key : PortSlotKey) f, key.owner = owner →
    OrdMap.find₂ s.portRecords port key = some f → f.metadata.authority < a

/-- The two states differ in positions of one owner, which are weaker than an authority. -/
structure WeakerWord (s s' : RegistryState) (owner : SourceIncarnationKey) (a : Authority) :
    Prop where
  beyond : SameBeyondPositions s s'
  subject : ∀ subject other, other ≠ owner →
    OrdMap.find₂ s'.subjectRecords subject other = OrdMap.find₂ s.subjectRecords subject other
  port : ∀ port (key : PortSlotKey), key.owner ≠ owner →
    OrdMap.find₂ s'.portRecords port key = OrdMap.find₂ s.portRecords port key
  before : Weaker s owner a
  after : Weaker s' owner a

namespace WeakerWord

variable {s s' : RegistryState} {owner : SourceIncarnationKey} {a : Authority} {port : PortRef}
  {policy : ValidationPolicy}

section

variable (h : WeakerWord s s' owner a)

include h

theorem symm : WeakerWord s' s owner a :=
  ⟨h.beyond.symm, fun subject other hne => (h.subject subject other hne).symm,
    fun port key hne => (h.port port key hne).symm, h.after, h.before⟩

theorem own : OwnWord s s' owner := ⟨h.beyond, h.subject, h.port⟩

/-- A live slot record that is strong enough is another owner's, and stays live. -/
theorem live (hlive : record ∈ livePortRecords s port policy) (ha : a ≤ record.metadata.authority) :
    record ∈ livePortRecords s' port policy := by
  have hcounts := countsAt_iff.mp hlive
  refine h.own.live_of_other hlive fun heq => ?_
  exact not_lt.mpr ha
    (h.before.port (heq ▸ hcounts.unfenced) port record.1 record.2 heq hcounts.stored)

theorem live_iff (ha : a ≤ record.metadata.authority) :
    record ∈ livePortRecords s' port policy ↔ record ∈ livePortRecords s port policy :=
  ⟨fun hlive => h.symm.live hlive ha, fun hlive => h.live hlive ha⟩

/-- A claim about a side that is strong enough is another owner's, and stays. -/
theorem side {record : SideRecord} {attached : Bool}
    (hmem : record ∈ sideClaims s subject policy attached) (ha : a ≤ record.2.metadata.authority) :
    record ∈ sideClaims s' subject policy attached := by
  obtain ⟨hrecord, hattached⟩ := mem_sideClaims.mp hmem
  obtain ⟨-, hstored, hfenced, -⟩ := mem_sideRecords.mp hrecord
  refine mem_sideClaims.mpr ⟨h.own.side_of_other hrecord fun heq => ?_, hattached⟩
  exact not_lt.mpr ha (h.before.subject (heq ▸ hfenced) subject record.2 (heq ▸ hstored))

theorem side_iff {subject : ObjectSideRef} {record : SideRecord} {attached : Bool}
    (ha : a ≤ record.2.metadata.authority) :
    record ∈ sideClaims s' subject policy attached ↔ record ∈ sideClaims s subject policy attached :=
  ⟨fun hmem => h.symm.side hmem ha, fun hmem => h.side hmem ha⟩

end

theorem topAuthority_eq (h : WeakerWord s s' owner (topAuthority s port policy))
    (hlive : livePortRecords s port policy ≠ []) :
    topAuthority s' port policy = topAuthority s port policy := by
  refine bestAuthority_congr (a := topAuthority s port policy) ?_ ?_
  · intro b hb
    simp only [List.mem_map]
    refine exists_congr fun record => and_congr_left fun heq => ?_
    subst heq
    exact h.live_iff hb
  · exact ⟨_, bestAuthority_mem (by simpa using hlive), le_refl _⟩

theorem topPortRecords_eq (h : WeakerWord s s' owner (topAuthority s port policy))
    (hlive : livePortRecords s port policy ≠ []) :
    topPortRecords s' port policy = topPortRecords s port policy := by
  unfold topPortRecords
  refine ((keyOrdered_livePortRecords _ _ _).filter _).ext
    ((keyOrdered_livePortRecords _ _ _).filter _) fun record => ?_
  rw [List.mem_filter, List.mem_filter, h.topAuthority_eq hlive]
  refine and_congr_left fun heq => h.live_iff ?_
  exact le_of_eq (beq_iff_eq.mp heq).symm

section

variable (h : WeakerWord s s' owner a)
  (hstrong : ∃ record ∈ sideClaims s subject policy true, a ≤ record.2.metadata.authority)

include h hstrong

/-- A side that a strong claim places is derived from strong claims alone. -/
theorem sideAuthority_eq :
    sideAuthority s' subject policy true = sideAuthority s subject policy true := by
  obtain ⟨record, hrecord, hle⟩ := hstrong
  refine bestAuthority_congr (a := a) ?_ ⟨_, List.mem_map_of_mem hrecord, hle⟩
  intro b hb
  simp only [List.mem_map]
  refine exists_congr fun record => and_congr_left fun heq => ?_
  subst heq
  exact h.side_iff hb

theorem topAttachments_eq :
    topAttachments s' subject policy = topAttachments s subject policy := by
  have hle : a ≤ sideAuthority s subject policy true := by
    obtain ⟨record, hrecord, hle⟩ := hstrong
    exact le_trans hle (le_sideAuthority hrecord)
  unfold topAttachments
  refine ((keyOrdered_sideClaims _ _ _ _).filter _).ext
    ((keyOrdered_sideClaims _ _ _ _).filter _) fun record => ?_
  rw [List.mem_filter, List.mem_filter, h.sideAuthority_eq hstrong]
  refine and_congr_left fun heq => h.side_iff ?_
  rw [beq_iff_eq.mp heq]
  exact hle

theorem sideWins_eq :
    sideWins s' subject policy true = sideWins s subject policy true := by
  have hauthority := h.sideAuthority_eq hstrong
  obtain ⟨record, hrecord, hle⟩ := hstrong
  have hle' := le_trans hle (le_sideAuthority hrecord)
  rw [Bool.eq_iff_iff, sideWins_true_iff, sideWins_true_iff, hauthority]
  refine and_congr ?_ ⟨fun hall other hother => ?_, fun hall other hother => ?_⟩
  · exact iff_of_true (List.ne_nil_of_mem (h.side hrecord hle)) (List.ne_nil_of_mem hrecord)
  · rcases lt_or_ge other.2.metadata.authority a with hlt | hge
    · exact lt_of_lt_of_le hlt hle'
    · exact hall other (h.side hother hge)
  · rcases lt_or_ge other.2.metadata.authority a with hlt | hge
    · exact lt_of_lt_of_le hlt hle'
    · exact hall other (h.symm.side hother hge)

end

end WeakerWord

/-! ### Evidence of a weaker source -/

section Evidence

variable {limits : Limits} {historyPerKey : UInt32} {es : List Evidence} {s s' : RegistryState}
  {e : Evidence} {m : Attestation} {port : PortRef} {policy : ValidationPolicy}

/-- **A side in the port has a claim of the port's authority.** -/
theorem exists_claim_of_occupant (hc : Consistent limits es s) (hw : WellKeyed s)
    (h : subject ∈ occupants s port policy) :
    ∃ record ∈ sideClaims s subject policy true,
      record.2.metadata.authority = topAuthority s port policy := by
  obtain ⟨record, hrecord, rfl⟩ := mem_occupants.mp h
  obtain ⟨htop, hempty⟩ := mem_occupiedRecords.mp hrecord
  obtain ⟨hlive, hauthority⟩ := List.mem_filter.mp htop
  have hcounts := countsAt_iff.mp hlive
  obtain ⟨entry, hentry, hattached, -, -, hinc, hgen⟩ := hcounts.still hempty
  have hmeta : entry.metadata = record.2.metadata :=
    hc.paired record.1 _ _ (stored_of_portRecord hw hcounts.stored).2 hempty _ _
      (stored_of_subjectRecord hentry) hgen
  refine ⟨(record.1.owner, entry), mem_sideClaims.mpr ⟨mem_sideRecords.mpr ⟨hcounts.registered,
    hentry, hcounts.unfenced, ?_, ?_⟩, hattached⟩, ?_⟩
  · show participates entry.metadata policy = true
    rw [hmeta]
    exact hcounts.participates
  · exact hinc.trans hcounts.current
  · show entry.metadata.authority = _
    rw [hmeta]
    exact beq_iff_eq.mp hauthority

/-- What an unfenced source says carries its authority. -/
theorem weaker_of_source (hc : Consistent limits es s) (hw : WellKeyed s) {source : SourceRecord}
    (hsource : s.sources[owner.source]? = some source) (hlt : source.descriptor.authority < a) :
    Weaker s owner a := by
  refine ⟨?_, ?_⟩
  · intro hfenced subject f hf
    have hm := hc.owned.authority _ _ _ (winner_of_subjectRecord hf) hfenced source hsource
    exact lt_of_eq_of_lt hm hlt
  · rintro hfenced port key f rfl hf
    have hm := hc.owned.authority _ _ _ (winner_of_portRecord hw hf).2 hfenced source hsource
    exact lt_of_eq_of_lt hm hlt

theorem Accepts.weakerWord (ha : Accepts limits historyPerKey s e m s') (hc : Consistent limits es s)
    {es' : List Evidence} (hc' : Consistent limits es' s') (hw : WellKeyed s)
    (hkind : e.payload.isPosition = true) {a : Authority}
    (hweak : ∀ source : SourceRecord, s.sources[e.header.source]? = some source →
      source.descriptor.authority < a) : WeakerWord s s' e.key a := by
  obtain ⟨source, t, hsource, -⟩ := ha.source
  have hlt := hweak source hsource
  have hown := ha.ownWord hw hkind
  exact ⟨hown.beyond, hown.subject, hown.port,
    weaker_of_source hc hw hsource hlt,
    weaker_of_source hc' (ha.wellKeyed hw) (by rw [ha.sources]; exact hsource) hlt⟩

theorem WeakerWord.sameTop (hc : Consistent limits es s) (hw : WellKeyed s)
    (h : WeakerWord s s' owner (topAuthority s port policy))
    (hlive : livePortRecords s port policy ≠ []) : SameTop s s' port policy := by
  have hstrong : ∀ subject ∈ occupants s port policy, ∃ record ∈ sideClaims s subject policy true,
      topAuthority s port policy ≤ record.2.metadata.authority := by
    intro subject hs
    obtain ⟨record, hrecord, heq⟩ := exists_claim_of_occupant hc hw hs
    exact ⟨record, hrecord, le_of_eq heq.symm⟩
  exact ⟨h.beyond.portCapabilityOf_eq port, h.topAuthority_eq hlive, h.topPortRecords_eq hlive,
    fun subject _ => h.beyond.sideDescriptorOf_eq subject.object subject.side,
    fun subject hs => h.sideWins_eq (hstrong subject hs),
    fun subject hs => h.topAttachments_eq (hstrong subject hs)⟩

end Evidence

/-- **A weaker source cannot change a stronger answer.**  In every reachable state, for every
port that has a live claim, a record about a position from a source of a lower authority than
the port's live claims have leaves the answer about the port as it was: the state, the edges
with their sides, slots and cited claims, the claims that it is empty, the conflict notes and
the validation.  Only the lists of overridden claims may differ. -/
theorem weakerSource_settled {r : Registry} {options : RegistryOptions} {requests : List Request}
    {es : List Evidence} (h : r.ReachedBy options requests es) (port : PortRef)
    (policy : ValidationPolicy) (hlive : livePortRecords r.state port policy ≠ []) {e : Evidence}
    (hkind : e.payload.isPosition = true)
    (hweak : ∀ source : SourceRecord, r.state.sources[e.header.source]? = some source →
      source.descriptor.authority < topAuthority r.state port policy)
    (t : Timestamp) (io : Store.AppendIo) :
    ((r.ingest e t io).1.queryPort port policy).map PortView.settled =
      (r.queryPort port policy).map PortView.settled := by
  obtain ⟨hw, hindexed, -, -, id, openedAt, htrace⟩ := h.trace
  have hlimits := (r.ingestLocked_config e t true true io).limits
  have hlimits' : (r.ingest e t io).1.limits = r.limits := hlimits
  rcases Registry.accepts_or_counted hindexed e t io with ⟨-, m, ha⟩ | ⟨-, hstate | ⟨-, session, hstate⟩⟩
  · have hword := ha.weakerWord htrace.consistent (htrace.accepts ha).consistent hw hkind hweak
    refine Registry.map_queryPort hword.beyond port policy ?_
    rw [hlimits']
    exact (hword.sameTop htrace.consistent hw hlive).settled_eq r.limits
  · refine Registry.map_queryPort ?_ port policy ?_
    · rw [hstate]
      exact ⟨rfl, rfl, rfl, rfl, rfl, rfl, rfl⟩
    · rw [hstate, hlimits']
  · have hb : SameBeyondPositions r.state (r.ingest e t io).1.state := by
      rw [hstate]
      exact ⟨rfl, rfl, rfl, rfl, rfl, rfl, rfl⟩
    refine Registry.map_queryPort hb port policy ?_
    rw [hlimits']
    exact (SameTop.of_positions hb (by rw [hstate]) (by rw [hstate])).settled_eq r.limits

/-- A source of a high rank places a side, and one of a low rank is known. -/
def sampleRanked : List Request :=
  [Registry.sampleOpen 1 1 5, Registry.sampleOpen 2 1 3, Registry.sampleIngest 1 1 1 Registry.sampleEndpoint,
    Registry.sampleIngest 1 1 2 (Registry.sampleObject 9),
    Registry.sampleIngest 1 1 3 (Registry.samplePlace 9 0 0 0)]

theorem weakerSource_settled_sample :
    ∃ (r : Registry) (es : List Evidence), r.ReachedBy {} sampleRanked es ∧
      livePortRecords r.state ⟨.fromParts 0 7, 0⟩ .liveOnly ≠ [] ∧
      ((r.ingest (Registry.sampleRecord 2 1 1 (Registry.samplePlace 9 0 1 0)) 4 .written).1.queryPort
          ⟨.fromParts 0 7, 0⟩ .liveOnly).map PortView.settled =
        (r.queryPort ⟨.fromParts 0 7, 0⟩ .liveOnly).map PortView.settled := by
  obtain ⟨r, es, hr, hp⟩ := Registry.exists_reached {} sampleRanked
    (fun r _ => !(livePortRecords r.state ⟨.fromParts 0 7, 0⟩ .liveOnly).isEmpty &&
      (r.state.sources[(.fromParts 0 2 : SourceId)]?).all fun source =>
        source.descriptor.authority < topAuthority r.state ⟨.fromParts 0 7, 0⟩ .liveOnly)
    (by decide +kernel)
  rw [Bool.and_eq_true] at hp
  have hlive : livePortRecords r.state ⟨.fromParts 0 7, 0⟩ .liveOnly ≠ [] := by
    simpa using hp.1
  refine ⟨r, es, hr, hlive, weakerSource_settled hr _ _ hlive rfl ?_ 4 .written⟩
  intro source hsource
  have hall := hp.2
  simp only [Registry.sampleRecord] at hsource
  rw [hsource, Option.all_some] at hall
  exact of_decide_eq_true hall

end CableRegistry
