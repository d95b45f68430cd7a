import CableRegistry.Consistency

/-!
# Refusals leave no trace

A record that is refused, for whatever reason, or that is a duplicate changes no claim, no
source, no label and no session but the counters of its own; a session that is refused changes
nothing at all (`refusal_traceless`).  A move that is accepted writes exactly the keys it wins.

The claims of a record are planned key by key, and the plan is dropped as a whole: a decision
that is refused or finds a duplicate stages nothing (`not_apply_of_duplicate` and
`Decision.Resolves`), and what is staged is applied after the record is durable.
-/

open Std

namespace CableRegistry

/-! ### Duplicates stage nothing -/

variable {texts : ClaimTexts} {u : ClaimUpdate} {insert : Decision} {o : GenerationOutcome}
  {base : IngestDisposition} {r : Registry}

theorem effectiveDisposition_ne_duplicate (a b c : Bool) (h : base ≠ .duplicate) :
    effectiveDisposition base a b c ≠ .duplicate := by
  unfold effectiveDisposition
  split
  · exact h
  · cases a <;> cases b <;> cases c <;> simp [h]

section Decide

variable {limits : Limits} {s : RegistryState} {index : Option LabelIndex} {m : Attestation}

theorem not_apply_decideSingle (hi : insert.disposition ≠ .duplicate)
    (h : (decideSingle index m o u texts insert).disposition = .duplicate) :
    (decideSingle index m o u texts insert).change.apply = false := by
  cases o with
  | insert => exact absurd h hi
  | superseded => exact absurd h (by simp [decideSingle, stageRing])
  | duplicate => rfl
  | collision => rfl

theorem stageWrite_ne_duplicate (a b : Bool) (h : base ≠ .duplicate) :
    (stageWrite s index m u base a b).disposition ≠ .duplicate :=
  effectiveDisposition_ne_duplicate _ a b h

theorem referenceBase_ne_duplicate (known : Bool) : referenceBase known ≠ .duplicate := by
  cases known <;> simp [referenceBase]

theorem not_apply_decidePosition {claim : PositionClaim}
    (h : (decidePosition limits s index m claim).disposition = .duplicate) :
    (decidePosition limits s index m claim).change.apply = false := by
  unfold decidePosition at h ⊢
  split
  · rfl
  split
  · rfl
  dsimp only
  split
  · rfl
  rename_i hcap hcol hsome
  rw [if_neg hcap, if_neg hcol] at h
  dsimp only at h
  rw [if_neg hsome] at h
  split at h
  · exact absurd h (by simp)
  · refine absurd h (effectiveDisposition_ne_duplicate _ _ _ ?_)
    split <;> simp

/-- **A duplicate stages nothing**, whatever the kind of the record. -/
theorem not_apply_of_duplicate {payload : EvidencePayload}
    (h : (decideEvidence limits s index m payload).disposition = .duplicate) :
    (decideEvidence limits s index m payload).change.apply = false := by
  cases payload with
  | attach p => exact not_apply_decidePosition h
  | detach p => exact not_apply_decidePosition h
  | move p => exact not_apply_decidePosition h
  | registerObject p =>
    refine not_apply_decideSingle ?_ h
    dsimp only
    split
    · simp [settled]
    split
    · simp [settled]
    · exact stageWrite_ne_duplicate _ _ (by simp)
  | registerEndpoint p =>
    refine not_apply_decideSingle ?_ h
    split
    · simp [settled]
    · exact stageWrite_ne_duplicate _ _ (by simp)
  | publishObjectCapability p =>
    exact not_apply_decideSingle (stageWrite_ne_duplicate _ _ (referenceBase_ne_duplicate _)) h
  | publishPortCapability p =>
    exact not_apply_decideSingle (stageWrite_ne_duplicate _ _ (referenceBase_ne_duplicate _)) h
  | setLifecycle p =>
    exact not_apply_decideSingle (stageWrite_ne_duplicate _ _ (referenceBase_ne_duplicate _)) h
  | reincarnateObject p =>
    refine not_apply_decideSingle ?_ h
    split
    · exact stageWrite_ne_duplicate _ _ (by simp)
    dsimp only
    split
    · simp [stageRing]
    · exact stageWrite_ne_duplicate _ _ (by simp)

/-! ### Labels -/

/-- The index that the next lookup of a label uses. -/
def labelsOf (s : RegistryState) (index : Option LabelIndex) : LabelIndex :=
  index.getD (LabelIndex.rebuild s)

theorem labelIndex_decideSingle (hi : labelsOf s insert.labelIndex = labelsOf s index) :
    labelsOf s (decideSingle index m o u texts insert).labelIndex = labelsOf s index := by
  cases o with
  | insert => exact hi
  | _ => rfl

theorem labelIndex_decidePosition (claim : PositionClaim) :
    (decidePosition limits s index m claim).labelIndex = index := by
  unfold decidePosition
  split
  · rfl
  split
  · rfl
  dsimp only
  split
  · rfl
  split <;> rfl

/-- **A decision builds the label index at most**: no lookup finds anything else. -/
theorem labelsOf_decideEvidence (payload : EvidencePayload) :
    labelsOf s (decideEvidence limits s index m payload).labelIndex = labelsOf s index := by
  cases payload with
  | attach p => exact congrArg _ (labelIndex_decidePosition _)
  | detach p => exact congrArg _ (labelIndex_decidePosition _)
  | move p => exact congrArg _ (labelIndex_decidePosition _)
  | registerObject p =>
    refine labelIndex_decideSingle ?_
    have hbuilt : labelsOf s (if (!p.descriptor.physicalLabel.isEmpty) = true then
        some (index.getD (LabelIndex.rebuild s)) else index) = labelsOf s index := by
      split <;> rfl
    dsimp only
    split
    · exact hbuilt
    split
    · exact hbuilt
    · exact hbuilt
  | registerEndpoint p =>
    refine labelIndex_decideSingle ?_
    split <;> rfl
  | reincarnateObject p =>
    refine labelIndex_decideSingle ?_
    split
    · rfl
    dsimp only
    split <;> rfl
  | _ => exact labelIndex_decideSingle rfl

end Decide

/-! ### What stays -/

/-- The two registries hold the same claims, sources and labels, and sessions of the same
source incarnations. -/
structure SameGraph (r r' : Registry) : Prop where
  objectRegistrations : r'.state.objectRegistrations = r.state.objectRegistrations
  endpointRegistrations : r'.state.endpointRegistrations = r.state.endpointRegistrations
  subjectRecords : r'.state.subjectRecords = r.state.subjectRecords
  portRecords : r'.state.portRecords = r.state.portRecords
  lifecycleRecords : r'.state.lifecycleRecords = r.state.lifecycleRecords
  reincarnationRecords : r'.state.reincarnationRecords = r.state.reincarnationRecords
  objectCapabilityRecords : r'.state.objectCapabilityRecords = r.state.objectCapabilityRecords
  portCapabilityRecords : r'.state.portCapabilityRecords = r.state.portCapabilityRecords
  sources : r'.state.sources = r.state.sources
  labels : ∀ label, (labelsOf r'.state r'.labelIndex).holders label =
    (labelsOf r.state r.labelIndex).holders label
  sessions : ∀ key, r'.state.sessions.contains key = r.state.sessions.contains key

theorem SameGraph.of_sessions {r r' : Registry}
    (hstate : ∃ sessions : OrdMap SourceIncarnationKey SessionRecord,
      r'.state = { r.state with sessions := sessions })
    (hsessions : ∀ key, r'.state.sessions.contains key = r.state.sessions.contains key)
    (hindex : labelsOf r.state r'.labelIndex = labelsOf r.state r.labelIndex) : SameGraph r r' := by
  obtain ⟨sessions, hstate⟩ := hstate
  refine ⟨?_, ?_, ?_, ?_, ?_, ?_, ?_, ?_, ?_, ?_, hsessions⟩
  case refine_10 =>
    intro label
    rw [← hindex, hstate]
    rfl
  all_goals rw [hstate]

namespace Registry

theorem ingest_kept {r : Registry} {e : Evidence} {t : Timestamp} {io : Store.AppendIo}
    (h : (r.ingest e t io).2.disposition.isAccepted = false ∨
      (r.ingest e t io).2.disposition = .duplicate) :
    (∃ sessions : OrdMap SourceIncarnationKey SessionRecord,
      (r.ingest e t io).1.state = { r.state with sessions := sessions }) ∧
      labelsOf r.state (r.ingest e t io).1.labelIndex = labelsOf r.state r.labelIndex := by
  have hi := r.ingests e t true true io
  unfold ingest at h ⊢
  generalize r.ingestLocked e t true true io = answer at h hi ⊢
  cases hi with
  | stopping _ => exact ⟨⟨_, rfl⟩, rfl⟩
  | refused _ _ => exact ⟨⟨_, rfl⟩, rfl⟩
  | @decided m committed _ _ hc =>
    obtain ⟨hstate, hdisp, -, hindex, -⟩ := conclude_spec e true (resultOf e t) committed
    rw [hdisp] at h
    have hlabels := @labelsOf_decideEvidence r.limits r.state r.labelIndex m e.payload
    rw [hstate, hindex]
    cases hc with
    | applied _ happly hacc =>
      -- What is applied was accepted and is no duplicate.
      rcases h with h | h
      · exact absurd (h.symm.trans hacc) (by simp)
      · exact absurd ((not_apply_of_duplicate h).symm.trans happly) (by simp)
    | notDurable =>
      dsimp only
      rw [(r.wrote_makeDurable e t true io).state]
      exact ⟨⟨_, rfl⟩, hlabels⟩
    | kept _ => exact ⟨⟨_, rfl⟩, hlabels⟩

/-- **A record that is refused or a duplicate changes the counters of its session at most.** -/
theorem sameGraph_ingest (r : Registry) (e : Evidence) (t : Timestamp) (io : Store.AppendIo)
    (h : (r.ingest e t io).2.disposition.isAccepted = false ∨
      (r.ingest e t io).2.disposition = .duplicate) : SameGraph r (r.ingest e t io).1 :=
  .of_sessions (ingest_kept h).1 (r.ingestLocked_frame e t true true io).2.1 (ingest_kept h).2

theorem sameGraph_openSession (r : Registry) (d : SourceDescriptor) (i : Incarnation)
    (t t' : Timestamp) (io : Store.AppendIo)
    (h : (r.openSession d i t t' io).2.disposition.isOpen = false) :
    SameGraph r (r.openSession d i t t' io).1 := by
  obtain ⟨hrest, ⟨hopen, -⟩ | ⟨-, hstate⟩⟩ := r.openSession_spec d i t t' io
  · exact absurd (h.symm.trans hopen) (by simp)
  · refine .of_sessions ⟨r.state.sessions, hstate⟩ ?_ ?_
    · rw [hstate]
      exact fun _ => rfl
    · rw [hrest.labelIndex]

/-! ### Batches -/

/-- The records of a batch, ingested one after the other. -/
theorem ingestBatch_snoc {before : List (Evidence × Timestamp × Store.AppendIo)}
    {element : Evidence × Timestamp × Store.AppendIo}
    (h : before.length < r.limits.maxEvidenceBatch.toNat) :
    r.ingestBatch (before ++ [element]) =
      (((r.ingestBatch before).1.ingest element.1 element.2.1 element.2.2).1,
        (r.ingestBatch before).2 ++
          [((r.ingestBatch before).1.ingest element.1 element.2.1 element.2.2).2]) := by
  unfold ingestBatch
  rw [List.take_of_length_le (by simp; omega), List.take_of_length_le (by omega), List.foldl_append]
  rfl

end Registry

/-! ### Keys won and lost -/

/-- The key is free or holds an older record. -/
def Wins (s : RegistryState) (k : ClaimKey) (g : Generation) : Prop :=
  ∀ w, s.stored k = some w → w.1.generation < g

/-- A claim that no reincarnation makes is written exactly where it wins. -/
theorem resolvedOutcome_insert_iff {limits : Limits} {historyPerKey : UInt32} {s s' : RegistryState}
    {e : Evidence} {m : Attestation} (h : Accepts limits historyPerKey s e m s')
    (hkind : e.payload.isReincarnation = false) (hu : u ∈ claimsOf e.key e.payload) :
    resolvedOutcome s m u = .insert ↔ Wins s (u.key e.key) e.header.generation := by
  rw [resolvedOutcome_of_not_reached (targetReached_of_mem hkind hu)]
  unfold claimOutcome Wins RegistryState.stored
  rw [h.owner, ← h.generation]
  cases s.lookup (u.key e.key) with
  | none => simp [slotOutcome]
  | some f =>
    rw [Option.map_some]
    unfold slotOutcome
    dsimp only
    rcases compareGeneration_cases f.metadata m (u.sameContent f.value) with
      ⟨ho, hlt⟩ | ⟨ho, hlt⟩ | ⟨heq, ho⟩
    · simp [ho, hlt]
    · simp [ho, UInt64.le_of_lt hlt]
    · rw [ho]
      cases u.sameContent f.value <;> simp [heq]

/-- **Refusals leave no trace**, and a move that is accepted writes exactly the keys it wins. -/
theorem refusal_traceless {r : Registry} {options : RegistryOptions} {requests : List Request}
    {es : List Evidence} (h : r.ReachedBy options requests es) :
    (∀ e t io, ((r.ingest e t io).2.disposition.isAccepted = false ∨
      (r.ingest e t io).2.disposition = .duplicate) → SameGraph r (r.ingest e t io).1) ∧
    (∀ d i t t' io, (r.openSession d i t t' io).2.disposition.isOpen = false →
      SameGraph r (r.openSession d i t t' io).1) ∧
    (∀ before element, before.length < r.limits.maxEvidenceBatch.toNat →
      ∃ result, (r.ingestBatch (before ++ [element])).2 = (r.ingestBatch before).2 ++ [result] ∧
        ((result.disposition.isAccepted = false ∨ result.disposition = .duplicate) →
          SameGraph (r.ingestBatch before).1 (r.ingestBatch (before ++ [element])).1)) ∧
    (∀ e t io p, e.payload = .move p → (r.ingest e t io).2.disposition.isAccepted = true →
      ∃ authority received, ∀ u ∈ claimsOf e.key e.payload,
        (Wins r.state (u.key e.key) e.header.generation →
          (r.ingest e t io).1.state.stored (u.key e.key) =
            some (attestationOf e authority received true, u.value)) ∧
        (¬ Wins r.state (u.key e.key) e.header.generation →
          (r.ingest e t io).1.state.stored (u.key e.key) = r.state.stored (u.key e.key))) := by
  refine ⟨r.sameGraph_ingest, r.sameGraph_openSession, ?_, ?_⟩
  · intro before element hlength
    rw [Registry.ingestBatch_snoc hlength]
    exact ⟨_, rfl, (r.ingestBatch before).1.sameGraph_ingest _ _ _⟩
  · intro e t io p hp hacc
    obtain ⟨-, hindexed, -⟩ := h.trace
    rcases Registry.accepts_or_counted hindexed e t io with ⟨-, m, ha⟩ | ⟨hnone, -⟩
    · obtain ⟨source, received, -, -, hm⟩ := ha.source
      have hkind : e.payload.isReincarnation = false := by
        rw [hp]
        rfl
      refine ⟨source.descriptor.authority, received, fun u hu => ⟨?_, ?_⟩⟩
      · intro hwins
        rw [← hm]
        exact stored_of_insert ha hu ((resolvedOutcome_insert_iff ha hkind hu).mpr hwins)
      · intro hloses
        refine stored_of_not_insert ha fun u' hu' hkey ho => hloses ?_
        rw [← hkey]
        exact (resolvedOutcome_insert_iff ha hkind hu').mp ho
    · exact absurd hnone (by simp [Registry.acceptedBy, hacc])

theorem refusal_traceless_unknown :
    ∃ (r : Registry) (es : List Evidence), r.ReachedBy {} [Registry.sampleOpen 1 1 5] es ∧
      (r.ingest (Registry.sampleRecord 2 1 1 (Registry.sampleObject 9)) 3 .written).2.disposition =
        .refusedUnknownSource ∧
      SameGraph r
        (r.ingest (Registry.sampleRecord 2 1 1 (Registry.sampleObject 9)) 3 .written).1 := by
  obtain ⟨r, es, hr, hp⟩ := Registry.exists_reached {} [Registry.sampleOpen 1 1 5]
    (fun r _ => (r.ingest (Registry.sampleRecord 2 1 1 (Registry.sampleObject 9)) 3
      .written).2.disposition == .refusedUnknownSource) (by decide +kernel)
  have hrefused := beq_iff_eq.mp hp
  refine ⟨r, es, hr, hrefused, (refusal_traceless hr).1 _ _ _ (.inl ?_)⟩
  rw [hrefused]
  rfl

end CableRegistry
