import CableRegistry.LabelScan
import CableRegistry.Winners

/-!
# High water marks

A session remembers the highest generation it has seen, and every ingest reports it.  It is meant to
be the largest generation that the registry has recorded for the source incarnation.  But the mark
is moved before it is known what becomes of the record: a record that is refused for a label or for
want of room, or that cannot be made durable, moves it as well.  A restart takes that back, since
the log has no refused records.  A record that is refused before it is counted is answered with
a mark of zero.

* `highWaterOf_ingestLocked`: an ingest moves the mark of its own session, up to its generation,
  whatever is decided.
* `Marked`: the marks are the largest accepted generations, and the log replays to the same marks.
* `highWater_tracks`: so it is in every run whose records are refused only below the mark of
  their session, or before anything of their source incarnation was accepted.
-/

open Std

namespace CableRegistry

/-! ### Marks -/

/-- The high water mark of a session, zero if there is none. -/
def highWaterOf (s : RegistryState) (key : SourceIncarnationKey) : Generation :=
  (s.sessions[key]?).elim 0 (·.highWater)

/-- The largest generation among the records of a source incarnation, zero if there is none. -/
def largestGeneration (key : SourceIncarnationKey) (es : List Evidence) : Generation :=
  ((es.filter (·.key == key)).map (·.header.generation)).foldl max 0

variable {m : Attestation} {e : Evidence} {es : List Evidence} {requests : List Request}
  {s s' : RegistryState} {session : SessionRecord} {key : SourceIncarnationKey}
  {io : Store.AppendIo} {t : Timestamp}

section Marks

theorem highWaterOf_insert (h : s'.sessions = s.sessions.insert key session)
    (key' : SourceIncarnationKey) :
    highWaterOf s' key' = if key = key' then session.highWater else highWaterOf s key' := by
  unfold highWaterOf
  rw [h, OrdMap.find_insert]
  split <;> rfl

theorem highWater_getD (s : RegistryState) (key : SourceIncarnationKey) :
    (s.sessions.getD key {}).highWater = highWaterOf s key := by
  unfold highWaterOf
  rw [ExtTreeMap.getD_eq_getD_getElem?]
  cases s.sessions[key]? <;> rfl

/-- A session that is written back with its mark. -/
theorem highWaterOf_keep (h : s'.sessions = s.sessions.insert key session)
    (hmark : session.highWater = highWaterOf s key) (key' : SourceIncarnationKey) :
    highWaterOf s' key' = highWaterOf s key' := by
  rw [highWaterOf_insert h]
  split
  · rename_i hk
    rw [hmark, hk]
  · rfl

theorem highWaterOf_clearVolatile (s : RegistryState) (key : SourceIncarnationKey) :
    highWaterOf (clearVolatile s) key = highWaterOf s key := by
  unfold highWaterOf clearVolatile RegistryState.blur
  dsimp only
  rw [ExtTreeMap.getElem?_map]
  cases s.sessions[key]? <;> rfl

theorem highWaterOf_applySessionOpen (s : RegistryState) (d : SourceDescriptor) (i : Incarnation)
    (t : Timestamp) (key : SourceIncarnationKey) :
    highWaterOf (Registry.applySessionOpen s d i t) key = highWaterOf s key := by
  unfold Registry.applySessionOpen
  dsimp only
  refine highWaterOf_keep rfl ?_ key
  split
  · exact highWater_getD s _
  · exact highWater_getD s _

theorem highWaterOf_openState (s : RegistryState) (d : SourceDescriptor) (i : Incarnation)
    (t : Timestamp) (key : SourceIncarnationKey) :
    highWaterOf (Registry.openState s d i t) key = highWaterOf s key := by
  rw [← highWaterOf_applySessionOpen s d i t key]
  have hsessions : (Registry.openState s d i t).sessions =
      (Registry.applySessionOpen s d i t).sessions.insert ⟨d.id, i⟩
        { (Registry.applySessionOpen s d i t).sessions.getD ⟨d.id, i⟩ {} with
          live := true, closed := false } := rfl
  exact highWaterOf_keep hsessions (highWater_getD (Registry.applySessionOpen s d i t) _) key

theorem highWaterOf_applySessionClose (s : RegistryState) (key key' : SourceIncarnationKey) :
    highWaterOf (Registry.applySessionClose s key) key' = highWaterOf s key' := by
  unfold Registry.applySessionClose
  cases hs : s.sessions[key]? with
  | none => rfl
  | some session =>
    refine highWaterOf_keep rfl ?_ key'
    unfold highWaterOf
    rw [hs]
    rfl

theorem toNat_max64 (a b : UInt64) : (max a b).toNat = max a.toNat b.toNat := by
  show (if a ≤ b then b else a).toNat = max a.toNat b.toNat
  split
  · rename_i hle
    exact (Nat.max_eq_right (UInt64.le_iff_toNat_le.mp hle)).symm
  · rename_i hlt
    exact (Nat.max_eq_left (UInt64.le_iff_toNat_le.mp (UInt64.le_of_lt (UInt64.not_le.mp hlt)))).symm

/-- **A record moves the mark up to its generation**, whatever was decided about it. -/
theorem highWater_countRecord (session : SessionRecord) (g : Generation) (d : IngestDisposition) :
    (Registry.countRecord session g d).highWater = max session.highWater g := by
  have hmark : (Registry.countRecord session g d).highWater =
      if g > session.highWater then g else session.highWater := by
    unfold Registry.countRecord
    dsimp only
    split
    · split <;> rfl
    · split <;> rfl
  rw [hmark, ← UInt64.toNat_inj, toNat_max64]
  split
  · rename_i hlt
    exact (Nat.max_eq_right (Nat.le_of_lt (UInt64.lt_iff_toNat_lt.mp hlt))).symm
  · rename_i hge
    exact (Nat.max_eq_left (UInt64.le_iff_toNat_le.mp (UInt64.not_lt.mp hge))).symm

theorem largestGeneration_append (key : SourceIncarnationKey) (es : List Evidence) (e : Evidence) :
    largestGeneration key (es ++ [e]) =
      if e.key = key then max (largestGeneration key es) e.header.generation
      else largestGeneration key es := by
  unfold largestGeneration
  rw [List.filter_append]
  by_cases hk : e.key = key
  · have hone : [e].filter (·.key == key) = [e] := by simp [hk]
    rw [if_pos hk, hone, List.map_append, List.foldl_append]
    rfl
  · have hnone : [e].filter (·.key == key) = [] := by
      simp [beq_eq_false_iff_ne.mpr hk]
    rw [if_neg hk, hnone, List.append_nil]

theorem le_largestGeneration (h : e ∈ es) :
    e.header.generation ≤ largestGeneration e.key es := by
  induction es using List.reverseRecOn with
  | nil => exact absurd h (by simp)
  | append_singleton es last ih =>
    rw [largestGeneration_append, UInt64.le_iff_toNat_le]
    rcases List.mem_append.mp h with hold | hlast
    · have hle := UInt64.le_iff_toNat_le.mp (ih hold)
      split
      · rw [toNat_max64]
        exact hle.trans (Nat.le_max_left _ _)
      · exact hle
    · obtain rfl := List.mem_singleton.mp hlast
      rw [if_pos rfl, toNat_max64]
      exact Nat.le_max_right _ _

end Marks

/-! ### An ingest -/

namespace Registry

section Ingest

variable {r : Registry} {e : Evidence} {t : Timestamp} {persist live : Bool} {io : Store.AppendIo}

/-- **An ingest that is admitted moves the mark of its session**, and reports where it is. -/
theorem highWaterOf_ingestLocked {m : Attestation} (hclosed : r.closed = false)
    (hm : r.admitRecord e t live = .ok m) :
    (∀ key, highWaterOf (r.ingestLocked e t persist live io).1.state key = if e.key = key then
        max (highWaterOf r.state key) e.header.generation else highWaterOf r.state key) ∧
      (r.ingestLocked e t persist live io).2.highWater =
        max (highWaterOf r.state e.key) e.header.generation := by
  rw [ingestLocked_of_admitted hclosed hm]
  have hsessions := (r.commits e t persist io
    (decideEvidence r.limits r.state r.labelIndex m e.payload)).sessions
  generalize r.commit e t persist io
    (decideEvidence r.limits r.state r.labelIndex m e.payload) = committed at hsessions ⊢
  have hmark : (countRecord (committed.1.state.sessions.getD e.key {}) e.header.generation
      committed.2.1).highWater = max (highWaterOf r.state e.key) e.header.generation := by
    rw [highWater_countRecord, hsessions, highWater_getD]
  refine ⟨fun key => ?_, hmark⟩
  have hstate := congrArg RegistryState.sessions (conclude_spec e persist (resultOf e t) committed).1
  dsimp only at hstate
  rw [highWaterOf_insert hstate, hmark]
  split
  · rename_i hk
    rw [hk]
  · unfold highWaterOf
    rw [hsessions]

/-- An ingest that is not admitted leaves the state and reports nothing. -/
theorem ingest_of_not_admitted {refusal : IngestDisposition × String} (hclosed : r.closed = false)
    (io : Store.AppendIo) (hm : r.admitRecord e t true = .error refusal) :
    (r.ingest e t io).1.state = r.state ∧ (r.ingest e t io).2.highWater = 0 ∧
      (r.ingest e t io).2.disposition.isAccepted = false := by
  have hrefused := admitRecord_eq_error hm
  unfold ingest ingestLocked
  simp only [hclosed, Bool.false_eq_true, if_false, hm]
  exact ⟨rfl, rfl, hrefused⟩

end Ingest

end Registry

/-! ### Room -/

/-- The claim, if it is new, finds room: no other object holds its label, and the limits on objects,
endpoints and claims about the port are not reached. -/
def roomFor (limits : Limits) (s : RegistryState) : ClaimUpdate → Bool
  | .objectRegistration object value =>
    (value.physicalLabel.isEmpty || (scanLabel s value.physicalLabel object).isNone) &&
      (s.objectRegistrations.contains object ||
        decide (s.objectRegistrations.size < limits.maxObjects.toNat))
  | .endpointRegistration endpoint _ =>
    s.endpointRegistrations.contains endpoint ||
      decide (s.endpointRegistrations.size < limits.maxEndpoints.toNat)
  | .port key _ => !portCapacityReached limits s key
  | _ => true

theorem hasRoom_of_roomFor {limits : Limits} {u : ClaimUpdate} (h : roomFor limits s u = true) :
    HasRoom limits s u := by
  cases u with
  | objectRegistration object value =>
    simp only [roomFor, Bool.and_eq_true, Bool.or_eq_true, List.isEmpty_iff, decide_eq_true_eq] at h
    refine ⟨fun hne holder => ?_, h.2⟩
    have hnone := h.1.resolve_left hne
    rw [scanLabel_eq, Option.isNone_iff_eq_none, List.find?_eq_none] at hnone
    refine Bool.eq_false_of_not_eq_true fun hholds => ?_
    refine hnone holder ?_ hholds
    simp only [holdsLiveLabel, Bool.and_eq_true] at hholds
    obtain ⟨⟨-, hreg⟩, -⟩ := hholds
    cases ho : s.objectRegistrations[holder]? with
    | none => simp [ho] at hreg
    | some owners => exact List.mem_map.mpr ⟨(holder, owners), OrdMap.mem_toList.mpr ho, rfl⟩
  | endpointRegistration endpoint value =>
    simp only [roomFor, Bool.or_eq_true, decide_eq_true_eq] at h
    exact h
  | port key value =>
    simp only [roomFor, Bool.not_eq_true'] at h
    exact h
  | _ => trivial

theorem claimsOf_ne_nil (owner : SourceIncarnationKey) (payload : EvidencePayload) :
    claimsOf owner payload ≠ [] := by
  cases payload <;> simp [claimsOf, PositionClaim.claims]

section Fresh

variable {limits : Limits} {s : RegistryState} {es : List Evidence} {m : Attestation}

/-- Every winner of a source incarnation is among the records that were accepted from it. -/
theorem Grounded.generation_le (h : Grounded limits es s) {k : ClaimKey} {v : ClaimValue}
    (hw : s.winner k = some (m, v)) : m.generation ≤ largestGeneration k.owner es := by
  obtain ⟨e, he, u, hu, rfl, -, authority, t, rfl⟩ := h.source k m v hw
  rw [owner_key_of_mem_claimsOf hu]
  exact le_largestGeneration he

/-- A record above all that was accepted is new at every claim key. -/
theorem claimOutcome_of_above (h : Grounded limits es s) {u : ClaimUpdate}
    (howner : (u.key m.owner).owner = m.owner)
    (hg : largestGeneration m.owner es < m.generation) : claimOutcome s m u = .insert := by
  unfold claimOutcome
  cases hf : s.lookup (u.key m.owner) with
  | none => rfl
  | some f =>
    have hwinner : s.winner (u.key m.owner) = some (f.metadata.blur coreBlur, f.value) := by
      unfold RegistryState.winner
      rw [hf]
      rfl
    have hle := h.generation_le hwinner
    rw [howner] at hle
    have hlt : f.metadata.generation < m.generation := UInt64.lt_of_le_of_lt hle hg
    unfold slotOutcome compareGeneration
    dsimp only
    rw [if_pos hlt]

/-- **A record above the mark that finds room is accepted and has something to store.** -/
theorem accepted_of_above (h : Grounded limits es s) {index : Option LabelIndex}
    (hi : CoveredBy s index) {payload : EvidencePayload}
    (hg : largestGeneration m.owner es < m.generation)
    (hroom : ∀ u ∈ claimsOf m.owner payload, roomFor limits s u = true) :
    (decideEvidence limits s index m payload).disposition.isAccepted = true ∧
      (decideEvidence limits s index m payload).change.apply = true := by
  have hnew : ∀ u ∈ claimsOf m.owner payload, claimOutcome s m u = .insert :=
    fun u hu => claimOutcome_of_above h (owner_key_of_mem_claimsOf hu) hg
  have haccepted : (decideEvidence limits s index m payload).disposition.isAccepted = true := by
    refine (isAccepted_decideEvidence_iff hi payload).mpr fun u hu => ⟨?_, fun _ => ?_⟩
    · rw [hnew u hu]
      simp
    · exact hasRoom_of_roomFor (hroom u hu)
  refine ⟨haccepted, ?_⟩
  rw [((resolves_decideEvidence limits s index m payload).accepted haccepted).2]
  obtain ⟨u, hu⟩ := List.exists_mem_of_ne_nil _ (claimsOf_ne_nil m.owner payload)
  refine List.any_eq_true.mpr ⟨u, hu, ?_⟩
  unfold resolvedOutcome
  split
  · rfl
  · rw [hnew u hu]
    rfl

end Fresh

namespace Registry

/-- A record is made durable, or was below the mark of its session, or was refused before anything
of its source incarnation was recorded. -/
def keepsMark (r : Registry) : Request → Bool
  | .ingest e t io =>
    match r.admitRecord e t true with
    | .error _ => highWaterOf r.state e.key == 0
    | .ok _ => decide (e.header.generation ≤ highWaterOf r.state e.key) ||
      (claimsOf e.key e.payload).all (roomFor r.limits r.state) && (r.makeDurable e t true io).2
  | _ => true

section Above

variable {r : Registry} {es : List Evidence} {e : Evidence} {t : Timestamp} {io : Store.AppendIo}
  {m : Attestation}

/-- What is known of a record above the mark that keeps it. -/
structure Above (r : Registry) (e : Evidence) (t : Timestamp) (io : Store.AppendIo)
    (m : Attestation) : Prop where
  closed : r.closed = false
  admitted : r.admitRecord e t true = .ok m
  accepted : (decideEvidence r.limits r.state r.labelIndex m e.payload).disposition.isAccepted = true
  apply : (decideEvidence r.limits r.state r.labelIndex m e.payload).change.apply = true
  durable : (r.makeDurable e t true io).2 = true

/-- A record that keeps the mark is at most at the mark or recorded. -/
theorem above_of_keepsMark (hgrounded : Grounded r.limits es r.state) (hi : r.Indexed)
    (hclosed : r.closed = false)
    (hmark : highWaterOf r.state e.key = largestGeneration e.key es)
    (hc : r.keepsMark (.ingest e t io) = true) (hm : r.admitRecord e t true = .ok m)
    (hlt : highWaterOf r.state e.key < e.header.generation) : r.Above e t io m := by
  unfold keepsMark at hc
  simp only [hm, Bool.or_eq_true, decide_eq_true_eq, Bool.and_eq_true, List.all_eq_true] at hc
  obtain ⟨hroom, hdurable⟩ := hc.resolve_left (UInt64.not_le.mpr hlt)
  obtain ⟨-, ⟨source, -, -, hmeta⟩, -⟩ := admitRecord_eq_ok hm
  have howner : m.owner = e.key := by
    rw [hmeta]
    rfl
  have hgeneration : m.generation = e.header.generation := by
    rw [hmeta]
    rfl
  have habove : largestGeneration m.owner es < m.generation := by
    rw [howner, hgeneration, ← hmark]
    exact hlt
  rw [← howner] at hroom
  obtain ⟨haccepted, happly⟩ := accepted_of_above hgrounded hi habove hroom
  exact ⟨hclosed, hm, haccepted, happly, hdurable⟩

theorem Above.judge (h : r.Above e t io m) :
    r.judge e t true = (decideEvidence r.limits r.state r.labelIndex m e.payload).disposition := by
  unfold Registry.judge
  simp only [h.closed, Bool.false_eq_true, if_false, h.admitted]

theorem Above.commit (h : r.Above e t io m) :
    r.commit e t true io (decideEvidence r.limits r.state r.labelIndex m e.payload) =
      (({ (r.makeDurable e t true io).1 with
          labelIndex := (decideEvidence r.limits r.state r.labelIndex m e.payload).labelIndex }
        ).applyStaged (decideEvidence r.limits r.state r.labelIndex m e.payload).change,
        (decideEvidence r.limits r.state r.labelIndex m e.payload).disposition,
        (decideEvidence r.limits r.state r.labelIndex m e.payload).detail) := by
  unfold Registry.commit
  dsimp only
  rw [makeDurable_labelIndex, h.accepted, h.apply]
  simp only [Bool.and_self, if_true, h.durable]

/-- **A record above the mark is accepted.** -/
theorem Above.disposition (h : r.Above e t io m) :
    (r.ingest e t io).2.disposition = r.judge e t true := by
  rw [ingest, ingestLocked_of_admitted h.closed h.admitted, (conclude_spec e true _ _).2.1, h.commit,
    h.judge]

/-- **A record above the mark is appended to the log.** -/
theorem Above.appended (h : r.Above e t io m) {store : Store} (hs : r.store = some store) :
    (Encoder.run (encodeEnvelope e t r.limits)).ok = true ∧
      (store.append (evidenceRecord e t r.limits) io).2 = .ok () ∧
      (r.ingest e t io).1.store = some (store.append (evidenceRecord e t r.limits) io).1 := by
  have hdurable := h.durable
  have hstore : (r.ingest e t io).1.store = (r.makeDurable e t true io).1.store := by
    rw [ingest, ingestLocked_of_admitted h.closed h.admitted, (conclude_spec e true _ _).2.2.1,
      h.commit]
    rfl
  rw [hstore]
  rcases makeDurable_cases hs e t io with hp | ⟨hok, hp⟩
  · rw [hp] at hdurable
    exact absurd hdurable (by simp)
  · rw [hp] at hdurable ⊢
    exact ⟨hok, ok_of_isOk hdurable, rfl⟩

end Above

/-! ### The log -/

/-- Only a record moves a mark. -/
theorem Does.marks {r r₁ : Registry} {q : Request} (h : Does r q r₁)
    (hq : ∀ e t io, q ≠ .ingest e t io) (key : SourceIncarnationKey) :
    highWaterOf r₁.state key = highWaterOf r.state key := by
  cases h with
  | wrote _ hwrote => rw [hwrote.state]
  | opened _ d i t t' => exact highWaterOf_openState r.state d i t' key
  | closed _ key' => exact highWaterOf_applySessionClose r.state key' key
  | ingested e t io => exact absurd rfl (hq e t io)

/-- The log is in step with the registry, down to the marks of its sessions. -/
structure MarkedLog (r : Registry) (records : List StoreRecord) : Prop where
  synced : Synced r records
  marks : ∀ now report r', (blank r.options now report).replayAll records = .ok r' →
    ∀ key, highWaterOf r'.state key = highWaterOf r.state key

section Log

variable {r r₁ : Registry} {records : List StoreRecord}

theorem MarkedLog.same (h : MarkedLog r records) (hs : Synced r₁ records)
    (hoptions : r₁.options = r.options)
    (hmarks : ∀ key, highWaterOf r₁.state key = highWaterOf r.state key) : MarkedLog r₁ records := by
  refine ⟨hs, ?_⟩
  intro now report r' hr key
  rw [hoptions] at hr
  rw [h.marks now report r' hr key, hmarks key]

/-- A record that is appended replays to the marks that the operation left. -/
theorem MarkedLog.append (h : MarkedLog r records) {record : StoreRecord}
    (hs : Synced r₁ (records ++ [record])) (hoptions : r₁.options = r.options)
    (hreplay : ∀ r₀ r', Alike r r₀ → (∀ key, highWaterOf r₀.state key = highWaterOf r.state key) →
      r₀.replayRecord record = .ok r' → ∀ key, highWaterOf r'.state key = highWaterOf r₁.state key) :
    MarkedLog r₁ (records ++ [record]) := by
  refine ⟨hs, ?_⟩
  intro now report r' hr
  rw [hoptions] at hr
  obtain ⟨r₀, h₀, hr⟩ := replayAll_concat_eq_ok.mp hr
  exact hreplay r₀ r' (h.synced.replays now report r₀ h₀) (h.marks now report r₀ h₀) hr

/-- The image of a registry has its marks. -/
theorem MarkedLog.of_image {r₀ : Registry} (hs : Synced r [r₀.imageRecord]) (hw : WellKeyed r₀.state)
    (hok : r₀.imageOf.ok = true)
    (hmarks : ∀ key, highWaterOf r.state key = highWaterOf r₀.state key) :
    MarkedLog r [r₀.imageRecord] := by
  refine ⟨hs, ?_⟩
  intro now report r' hr key
  rw [replayAll_singleton] at hr
  rw [replayRecord_image hw hok hr, hmarks]
  exact highWaterOf_clearVolatile r₀.state key

/-- **A restart finds the marks in the log.** -/
theorem MarkedLog.reopen (h : MarkedLog r records) {env : OpenEnv}
    (hopen : (Registry.open r.options r.disk env).2 = .ok r₁) :
    MarkedLog r₁ records ∧ ∀ key, highWaterOf r₁.state key = highWaterOf r.state key := by
  obtain ⟨hoptions, hs, report, r₀, id, hr, hstate⟩ := h.synced.reopen_replays hopen
  have hmarks : ∀ key, highWaterOf r₁.state key = highWaterOf r.state key := by
    intro key
    rw [hstate, highWaterOf_clearVolatile, ← h.marks env.now report r₀ hr key]
    rfl
  exact ⟨h.same hs hoptions hmarks, hmarks⟩

/-- An evidence record moves the mark when it is replayed as it did when it was ingested. -/
theorem replayed_mark {r₀ r' : Registry} (halike : Alike r r₀) (hclosed : r.closed = false)
    (hm : r.admitRecord e t true = .ok m)
    (hok : (Encoder.run (encodeEnvelope e t r.limits)).ok = true)
    (hr : r₀.replayRecord (evidenceRecord e t r.limits) = .ok r') (key : SourceIncarnationKey) :
    highWaterOf r'.state key = if e.key = key then
      max (highWaterOf r₀.state key) e.header.generation else highWaterOf r₀.state key := by
  have hadmitted := halike.admitRecord e t true false
  rw [hm] at hadmitted
  rw [(replayRecord_evidence_back (admitRecord_eq_ok hm).1 hok hr).1]
  cases hm₀ : r₀.admitRecord e t false with
  | error refusal =>
    rw [hm₀] at hadmitted
    exact absurd hadmitted (by simp [Except.map])
  | ok m₀ => exact (highWaterOf_ingestLocked (halike.closed.trans hclosed) hm₀).1 key

/-- What a record says was done replays to the marks it left. -/
theorem Recorded.marks {q : Request} {record : StoreRecord} (h : Recorded r q record r₁)
    (hclosed : r.closed = false) : ∀ r₀ r', Alike r r₀ →
      (∀ key, highWaterOf r₀.state key = highWaterOf r.state key) →
      r₀.replayRecord record = .ok r' → ∀ key, highWaterOf r'.state key = highWaterOf r₁.state key := by
  intro r₀ r' halike hsame hr key
  cases h with
  | opened _ hok hstate =>
    rw [replayRecord_session_back hok hr, hstate]
    dsimp only
    rw [highWaterOf_applySessionOpen, hsame, highWaterOf_openState]
  | closed hstate =>
    rw [replayRecord_close] at hr
    rw [← Except.ok.inj hr, hstate]
    dsimp only
    rw [highWaterOf_applySessionClose, hsame, highWaterOf_applySessionClose]
  | ingested hacc hok =>
    obtain ⟨-, m, hm, -⟩ := of_isAccepted_judge hacc
    rw [replayed_mark halike hclosed hm hok hr key, hsame]
    exact ((highWaterOf_ingestLocked hclosed hm).1 key).symm

/-- A request that leaves the marks alone leaves a log with the same marks. -/
theorem MarkedLog.step {q : Request} (h : MarkedLog r records) (hw : WellKeyed r.state)
    (htidy : q.Tidy r.options) (hstep : r.step q = .ok r₁) (hoptions : r₁.options = r.options)
    (hmarks : ∀ key, highWaterOf r₁.state key = highWaterOf r.state key) :
    ∃ records', MarkedLog r₁ records' := by
  obtain ⟨records', hs, hextends⟩ := h.synced.step (fun _ _ => hw) htidy hstep
  refine ⟨records', ?_⟩
  cases hextends with
  | same => exact h.same hs hoptions hmarks
  | imaged _ hok => exact .of_image hs hw hok hmarks
  | recorded hrecorded => exact h.append hs hoptions (hrecorded.marks h.synced.config.closed)

/-- A record that is at most at the mark of its session leaves it, and so does the log. -/
theorem highWaterOf_ingest_of_le (hclosed : r.closed = false) (hm : r.admitRecord e t true = .ok m)
    (hle : e.header.generation ≤ highWaterOf r.state e.key) (key : SourceIncarnationKey) :
    highWaterOf (r.ingest e t io).1.state key = highWaterOf r.state key := by
  unfold Registry.ingest
  rw [(highWaterOf_ingestLocked hclosed hm).1 key]
  split
  · rename_i hk
    rw [hk] at hle
    rw [← UInt64.toNat_inj, toNat_max64]
    exact Nat.max_eq_left (UInt64.le_iff_toNat_le.mp hle)
  · rfl

/-- **The log keeps up with every record that keeps the mark.** -/
theorem MarkedLog.ingest (h : MarkedLog r records) (hw : WellKeyed r.state)
    (hgrounded : Grounded r.limits es r.state)
    (hmark : highWaterOf r.state e.key = largestGeneration e.key es)
    (hc : r.keepsMark (.ingest e t io) = true) (htidy : Request.Tidy r.options (.ingest e t io)) :
    ∃ records', MarkedLog (r.ingest e t io).1 records' := by
  have hclosed := h.synced.config.closed
  have hoptions := (r.ingestLocked_config e t true true io).options
  cases hm : r.admitRecord e t true with
  | error refusal =>
    exact h.step hw htidy rfl hoptions fun key => by rw [(ingest_of_not_admitted hclosed io hm).1]
  | ok m =>
    by_cases hle : e.header.generation ≤ highWaterOf r.state e.key
    · exact h.step hw htidy rfl hoptions (highWaterOf_ingest_of_le hclosed hm hle)
    · have habove := above_of_keepsMark hgrounded h.synced.indexed hclosed hmark hc hm
        (UInt64.not_le.mp hle)
      obtain ⟨store, -, hs, -⟩ := h.synced.logged
      obtain ⟨hok, happ, hnew⟩ := habove.appended hs
      have hrecorded : Recorded r (.ingest e t io) _ (r.ingest e t io).1 :=
        .ingested (by rw [habove.judge]; exact habove.accepted) hok habove.disposition
      exact ⟨_, h.append (h.synced.written hs (length_payload_lt _ _) happ hnew (.ingested e t io)
        hrecorded) hoptions (hrecorded.marks hclosed)⟩

end Log

/-! ### Runs -/

/-- The marks are the largest generations among the accepted records, and the log replays to
the same marks so long as it has to be read again. -/
structure Marked (r : Registry) (es : List Evidence) (requests : List Request) : Prop where
  marks : ∀ key, highWaterOf r.state key = largestGeneration key es
  logged : (∃ records, MarkedLog r records) ∨ ∀ env, .reopen env ∉ requests

section Run

variable {r r₁ : Registry} {es : List Evidence} {e : Evidence} {t : Timestamp} {io : Store.AppendIo}

/-- **A record that keeps the mark leaves it at the largest accepted generation**, and reports it. -/
theorem marks_ingest (hgrounded : Grounded r.limits es r.state) (hi : r.Indexed)
    (hclosed : r.closed = false) (hmarks : ∀ key, highWaterOf r.state key = largestGeneration key es)
    (hc : r.keepsMark (.ingest e t io) = true) :
    (∀ key, highWaterOf (r.ingest e t io).1.state key =
      largestGeneration key (es ++ r.acceptedBy (.ingest e t io))) ∧
    (r.ingest e t io).2.highWater =
      largestGeneration e.key (es ++ r.acceptedBy (.ingest e t io)) := by
  unfold acceptedBy
  dsimp only
  cases hm : r.admitRecord e t true with
  | error refusal =>
    obtain ⟨hstate, hreported, hrefused⟩ := ingest_of_not_admitted hclosed io hm
    have hzero : highWaterOf r.state e.key = 0 := by
      unfold keepsMark at hc
      simpa only [hm, beq_iff_eq] using hc
    rw [if_neg (by simp [hrefused]), List.append_nil, hstate, hreported, ← hmarks, hzero]
    exact ⟨hmarks, rfl⟩
  | ok m =>
    have hmoved : ∀ key, highWaterOf (r.ingest e t io).1.state key =
        largestGeneration key (es ++ [e]) := by
      intro key
      rw [largestGeneration_append, ← hmarks]
      exact (highWaterOf_ingestLocked hclosed hm).1 key
    have hreported : (r.ingest e t io).2.highWater = largestGeneration e.key (es ++ [e]) := by
      rw [largestGeneration_append, if_pos rfl, ← hmarks]
      exact (highWaterOf_ingestLocked hclosed hm).2
    by_cases hacc : (r.ingest e t io).2.disposition.isAccepted = true
    · rw [if_pos hacc]
      exact ⟨hmoved, hreported⟩
    -- A refused record was at most at the mark, so it would not have moved it either.
    · have hle : e.header.generation ≤ highWaterOf r.state e.key := by
        refine UInt64.not_lt.mp fun hlt => hacc ?_
        have habove := above_of_keepsMark hgrounded hi hclosed (hmarks e.key) hc hm hlt
        rw [habove.disposition, habove.judge]
        exact habove.accepted
      have hsame : ∀ key, highWaterOf (r.ingest e t io).1.state key = largestGeneration key es := by
        intro key
        rw [highWaterOf_ingest_of_le hclosed hm hle, hmarks]
      rw [if_neg hacc, List.append_nil, hreported, ← hmoved, hsame]
      exact ⟨hsame, rfl⟩

/-- **A request that keeps the mark keeps all of them.** -/
theorem Marked.step {q : Request} (h : r.Marked es (q :: requests))
    (hrunning : r.Running (q :: requests)) (hgrounded : Grounded r.limits es r.state)
    (hclosed : r.closed = false) (hc : r.keepsMark q = true) (hstep : r.step q = .ok r₁) :
    r₁.Marked (es ++ r.acceptedBy q) requests := by
  have hlogged : (∀ records, MarkedLog r records → q.Tidy r.options →
      ∃ records', MarkedLog r₁ records') →
      (∃ records, MarkedLog r₁ records) ∨ ∀ env, .reopen env ∉ requests := by
    intro hkeep
    rcases h.logged with ⟨records, hs⟩ | hnone
    · rcases hrunning.orderly.tidy_or with htidy | hnone
      · exact .inl (hkeep records hs htidy)
      · exact .inr hnone
    · exact .inr fun env henv => hnone env (List.mem_cons_of_mem q henv)
  have hquiet : r.acceptedBy q = [] → (∀ key, highWaterOf r₁.state key = highWaterOf r.state key) →
      ∀ key, highWaterOf r₁.state key = largestGeneration key (es ++ r.acceptedBy q) := by
    intro hnone hsame key
    rw [hsame, h.marks, hnone, List.append_nil]
  by_cases hreopen : ∃ env, q = .reopen env
  · obtain ⟨env, rfl⟩ := hreopen
    rcases h.logged with ⟨records, hs⟩ | hnone
    · obtain ⟨hs', hsame⟩ := hs.reopen hstep
      exact ⟨hquiet rfl hsame, .inl ⟨records, hs'⟩⟩
    · exact absurd List.mem_cons_self (hnone env)
  by_cases hingest : ∃ e t io, q = .ingest e t io
  · obtain ⟨e, t, io, rfl⟩ := hingest
    obtain rfl := Except.ok.inj hstep
    exact ⟨(marks_ingest hgrounded hrunning.indexed hclosed h.marks hc).1, hlogged fun _ hs htidy =>
      hs.ingest hrunning.wellKeyed hgrounded (h.marks e.key) hc htidy⟩
  · have hdoes := does (not_exists.mp hreopen) hstep
    have hmarks := hdoes.marks fun e t io hq => hingest ⟨e, t, io, hq⟩
    refine ⟨hquiet ?_ hmarks, hlogged fun _ hs htidy =>
      hs.step hrunning.wellKeyed htidy hstep hdoes.frame.1.options hmarks⟩
    cases q with
    | ingest e t io => exact absurd ⟨e, t, io, rfl⟩ hingest
    | _ => rfl

/-- Every request of the run keeps the mark in the registry to which it is made. -/
def keepsMarks : Registry → List Request → Bool
  | _, [] => true
  | r, q :: requests => r.keepsMark q &&
    match r.step q with
    | .error _ => true
    | .ok r' => r'.keepsMarks requests

theorem Marked.run (h : r.Marked es requests) (hrunning : r.Running requests)
    (hconsistent : Consistent r.limits es r.state) (hclosed : r.closed = false)
    (hkeeps : r.keepsMarks requests = true) (hrun : r.run requests = .ok r₁) :
    r₁.Marked (es ++ r.accepted requests) [] := by
  induction requests generalizing r es with
  | nil =>
    obtain rfl : r = r₁ := Except.ok.inj hrun
    rw [show r.accepted [] = [] from rfl, List.append_nil]
    exact h
  | cons q requests ih =>
    obtain ⟨r₂, hstep, hrun⟩ := foldlM_cons_eq_ok.mp hrun
    simp only [accepted, hstep]
    unfold keepsMarks at hkeeps
    rw [Bool.and_eq_true] at hkeeps
    obtain ⟨hq, hrest⟩ := hkeeps
    rw [hstep] at hrest
    obtain ⟨hrunning', hcfg, heffect⟩ := hrunning.step hstep
    have hconsistent' : Consistent r₂.limits (es ++ r.acceptedBy q) r₂.state := by
      rw [hcfg.limits]
      exact hconsistent.trace heffect.trace
    rw [← List.append_assoc]
    exact ih (h.step hrunning hconsistent.grounded hclosed hq hstep) hrunning' hconsistent'
      (hcfg.closed.trans hclosed) hrest hrun

theorem marked_of_open {options : RegistryOptions} {disk : Option (List UInt8)} {env : OpenEnv}
    (hfresh : disk.getD [] = []) (hopen : (Registry.open options disk env).2 = .ok r)
    (horderly : Orderly options requests) : r.Marked [] requests := by
  obtain ⟨-, -, -, hstate⟩ := running_of_open hfresh hopen horderly
  have hzero : ∀ id openedAt key, highWaterOf { id := id, openedAt := openedAt } key = 0 := by
    intro id openedAt key
    unfold highWaterOf
    rw [ExtTreeMap.getElem?_empty]
    rfl
  refine ⟨fun key => ?_, ?_⟩
  · rw [hstate]
    exact hzero _ _ key
  · cases hstore : options.store with
    | none =>
      refine .inr fun env' hmem => ?_
      obtain ⟨before, after, heq⟩ := List.append_of_mem hmem
      have hsome := (horderly before env' after heq).1
      rw [hstore] at hsome
      exact absurd hsome (by simp)
    | some storeOptions =>
      obtain ⟨-, records, hs, horigin⟩ := Synced.of_open hstore hopen
      cases horigin with
      | replayed report r₀ hold => exact absurd hfresh hold
      | created r₀ _ himage hok _ hempty hcleared _ =>
        have hw : WellKeyed r₀.state := by
          rw [hempty]
          exact .empty _ _
        rw [himage] at hs
        refine .inl ⟨_, .of_image hs hw hok fun key => ?_⟩
        rw [hcleared, highWaterOf_clearVolatile]

end Run

/-- The registry is reached by a run whose requests all keep the marks. -/
def ReachedKeeping (r : Registry) (options : RegistryOptions) (requests : List Request)
    (es : List Evidence) : Prop :=
  Orderly options requests ∧ ∃ disk env r₀, disk.getD [] = [] ∧
    (Registry.open options disk env).2 = .ok r₀ ∧ r₀.run requests = .ok r ∧
    r₀.accepted requests = es ∧ r₀.keepsMarks requests = true

/-- **The high water mark of a session is the largest generation that the registry has accepted for
the source incarnation**, in the session and in the answer to every ingest, if every record that is
above the mark can be recorded, and none is refused at the door after one was recorded. -/
theorem highWater_tracks {r : Registry} {options : RegistryOptions} {requests : List Request}
    {es : List Evidence} (h : r.ReachedKeeping options requests es) :
    (∀ key, highWaterOf r.state key = largestGeneration key es) ∧
    ∀ e t io, r.keepsMark (.ingest e t io) = true → (r.ingest e t io).2.highWater =
      largestGeneration e.key (es ++ r.acceptedBy (.ingest e t io)) := by
  obtain ⟨horderly, disk, env, r₀, hfresh, hopen, hrun, hes, hkeeps⟩ := h
  obtain ⟨hrunning, -, hconfig, hstate⟩ := running_of_open hfresh hopen horderly
  have hconsistent : Consistent r₀.limits [] r₀.state := by
    rw [hstate]
    exact .empty _ _ _
  have hreached : r.ReachedBy options requests es :=
    ⟨horderly, disk, env, r₀, hfresh, hopen, hrun, hes⟩
  obtain ⟨-, hindexed, hconfig', -, id, openedAt, htrace⟩ := hreached.trace
  have hmarked := (marked_of_open hfresh hopen horderly).run hrunning hconsistent hconfig.closed
    hkeeps hrun
  rw [List.nil_append, hes] at hmarked
  refine ⟨hmarked.marks, ?_⟩
  intro e t io hc
  exact (marks_ingest htrace.consistent.grounded hindexed hconfig'.closed hmarked.marks hc).2

/-- Object 8 is registered at generation 1, so object 9 can be registered at generation 4. -/
theorem highWater_tracks_sample :
    ∃ (r : Registry) (es : List Evidence) (e : Evidence), r.ReachedKeeping {} sampleTagging es ∧
      largestGeneration e.key es = 1 ∧
      r.keepsMark (.ingest e 3 .written) = true ∧
      largestGeneration e.key (es ++ r.acceptedBy (.ingest e 3 .written)) = 4 := by
  let e := sampleRecord 1 1 4 (sampleObject 9)
  obtain ⟨r₀, r, horderly, hopen, hrun, hp⟩ := exists_run {} sampleTagging
    (fun r₀ r => r₀.keepsMarks sampleTagging && r.keepsMark (.ingest e 3 .written) &&
      decide (highWaterOf r.state e.key = 1 ∧ (r.ingest e 3 .written).2.highWater = 4))
    (by decide +kernel)
  rw [Bool.and_eq_true, Bool.and_eq_true, decide_eq_true_eq] at hp
  obtain ⟨⟨hkeeps, hc⟩, hmark, hreported⟩ := hp
  have hreached : r.ReachedKeeping {} sampleTagging (r₀.accepted sampleTagging) :=
    ⟨horderly, none, _, r₀, rfl, hopen, hrun, rfl, hkeeps⟩
  obtain ⟨hmarks, hresults⟩ := highWater_tracks hreached
  exact ⟨r, _, e, hreached, (hmarks e.key).symm.trans hmark, hc,
    (hresults e 3 .written hc).symm.trans hreported⟩

/-- Object 8 has its label at generation 1.  Registering object 9 with that label at generation 5 is
refused, and the mark is 5. -/
theorem refused_record_moves_highWater :
    ∃ (r : Registry) (es : List Evidence) (e : Evidence), r.ReachedBy {} sampleTagging es ∧
      (r.ingest e 4 .written).2.disposition = .refusedLabelConflict ∧
      largestGeneration e.key (es ++ r.acceptedBy (.ingest e 4 .written)) = 1 ∧
      (r.ingest e 4 .written).2.highWater = 5 ∧
      highWaterOf (r.ingest e 4 .written).1.state e.key = 5 := by
  let e := sampleRecord 1 1 5 (.registerObject (sampleTagged 9))
  obtain ⟨r, es, hr, hp⟩ := exists_reached {} sampleTagging
    (fun r es => decide (largestGeneration e.key es = 1 ∧
      (r.ingest e 4 .written).2.disposition = .refusedLabelConflict ∧
      (r.ingest e 4 .written).2.highWater = 5 ∧
      highWaterOf (r.ingest e 4 .written).1.state e.key = 5)) (by decide +kernel)
  obtain ⟨hlargest, hrefused, hreported, hmark⟩ := of_decide_eq_true hp
  have hnone : r.acceptedBy (.ingest e 4 .written) = [] := by
    unfold acceptedBy
    dsimp only
    rw [hrefused]
    rfl
  refine ⟨r, es, e, hr, hrefused, ?_, hreported, hmark⟩
  rw [hnone, List.append_nil]
  exact hlargest

end Registry

end CableRegistry
