import CableRegistry.Ranges
import CableRegistry.Refusals
import CableRegistry.Winners

/-!
# Same generation, same content

A record whose generation a claim key already holds is a duplicate if it says what is stored there
and is refused otherwise.  Whether it says the same is decided by kind of record.  Most kinds
compare the whole value.  A reincarnation leaves out the target, which follows from what it does
compare (`value_of_sameContent`).  A lifecycle leaves out the incarnation, and nothing makes up for
that: `Reworded`.

* `claimOutcome_of_duplicate`: a duplicate is one at every claim key of the record.
* `same_generation_iff`: the rule holds for a record exactly when it does not repeat the action and
  the reason of a stored lifecycle claim for another incarnation of the object.
-/

open Std

namespace CableRegistry

/-! ### Duplicates and collisions -/

variable {m : Attestation} {payload : EvidencePayload} {f : Folded ClaimValue}

section Outcomes

variable {limits : Limits} {s : RegistryState} {index : Option LabelIndex} {m : Attestation}
  {u : ClaimUpdate}

/-- **A duplicate is one at every claim key.** -/
theorem claimOutcome_of_duplicate
    (h : (decideEvidence limits s index m payload).disposition = .duplicate)
    (hu : u ∈ claimsOf m.owner payload) : claimOutcome s m u = .duplicate := by
  have hresolves := resolves_decideEvidence limits s index m payload
  have haccepted : (decideEvidence limits s index m payload).disposition.isAccepted = true := by
    rw [h]
    rfl
  obtain ⟨hcollision, hchange⟩ := hresolves.accepted haccepted
  have happly := not_apply_of_duplicate h
  rw [hchange] at happly
  have hnone := List.any_eq_false.mp happly u hu
  have hne := hcollision u hu
  have hresolved : resolvedOutcome s m u = .duplicate := by
    cases ho : resolvedOutcome s m u with
    | insert => exact absurd (by rw [ho]; rfl) hnone
    | superseded => exact absurd (by rw [ho]; rfl) hnone
    | duplicate => rfl
    | collision => exact absurd ho hne
  unfold resolvedOutcome at hresolved
  split at hresolved
  · exact absurd hresolved (by simp)
  · exact hresolved

/-- What a claim of a stored generation meets. -/
theorem claimOutcome_of_generation (hf : s.lookup (u.key m.owner) = some f)
    (hg : f.metadata.generation = m.generation) :
    claimOutcome s m u = if u.sameContent f.value then .duplicate else .collision := by
  unfold claimOutcome
  rw [hf]
  simp [slotOutcome, compareGeneration, hg]

theorem of_claimOutcome_duplicate (h : claimOutcome s m u = .duplicate) :
    ∃ f, s.lookup (u.key m.owner) = some f ∧ f.metadata.generation = m.generation ∧
      u.sameContent f.value = true := by
  unfold claimOutcome at h
  cases hf : s.lookup (u.key m.owner) with
  | none =>
    rw [hf] at h
    exact absurd h (by simp [slotOutcome])
  | some f =>
    rw [hf] at h
    unfold slotOutcome compareGeneration at h
    dsimp only at h
    split at h
    · exact absurd h (by simp)
    split at h
    · exact absurd h (by simp)
    rename_i hnlt hngt
    split at h
    · rename_i hsame
      exact ⟨f, rfl, UInt64.le_antisymm (UInt64.not_lt.mp hngt) (UInt64.not_lt.mp hnlt), hsame⟩
    · exact absurd h (by simp)

end Outcomes

/-! ### What is compared -/

/-- The record repeats, at its generation, the action and the reason of a stored lifecycle claim of
its source, for another incarnation of the object. -/
def Reworded (s : RegistryState) (e : Evidence) : Prop :=
  ∃ p f, e.payload = .setLifecycle p ∧ OrdMap.find₂ s.lifecycleRecords p.object e.key = some f ∧
    f.metadata.generation = e.header.generation ∧ f.value.action = p.action ∧
    f.value.reason = p.reason ∧ f.value.objectIncarnation ≠ p.objectIncarnation

/-- The lifecycle claim of a record is that of its payload. -/
theorem of_lifecycle_mem {owner : SourceIncarnationKey} {object : ObjectId} {v : LifecycleValue}
    (h : .lifecycle object v ∈ claimsOf owner payload) :
    ∃ p, payload = .setLifecycle p ∧ object = p.object ∧
      v = ⟨p.objectIncarnation, p.action, p.reason⟩ := by
  cases payload with
  | setLifecycle p =>
    obtain ⟨rfl, rfl⟩ := ClaimUpdate.lifecycle.inj (List.mem_singleton.mp h)
    exact ⟨p, rfl, rfl, rfl⟩
  | attach p | detach p | move p => simp [claimsOf, PositionClaim.claims] at h
  | _ => simp [claimsOf] at h

section Content

variable {limits : Limits} {s : RegistryState} {es : List Evidence} {e : Evidence} {u : ClaimUpdate}

/-- **What is compared settles the value**, unless a lifecycle claim is reworded. -/
theorem value_of_sameContent (hs : Grounded limits es s) (hreworded : ¬ Reworded s e)
    (hu : u ∈ claimsOf e.key e.payload) (hf : s.lookup (u.key e.key) = some f)
    (hg : f.metadata.generation = e.header.generation) (hsame : u.sameContent f.value = true) :
    f.value = u.value := by
  cases u with
  | lifecycle object v =>
    obtain ⟨stored, hstored, rfl⟩ := Option.map_eq_some_iff.mp hf
    obtain ⟨p, hp, rfl, rfl⟩ := of_lifecycle_mem hu
    simp only [ClaimUpdate.sameContent, Folded.mapValue, Bool.and_eq_true, beq_iff_eq] at hsame
    have hincarnation : stored.value.objectIncarnation = p.objectIncarnation := by
      by_contra hne
      exact hreworded ⟨p, stored, hp, hstored, hg, hsame.1, hsame.2, hne⟩
    show ClaimValue.lifecycle stored.value = ClaimValue.lifecycle _
    rw [← hincarnation, ← hsame.1, ← hsame.2]
  | reincarnation object v =>
    obtain ⟨stored, hstored, rfl⟩ := Option.map_eq_some_iff.mp hf
    obtain ⟨p, hp, rfl, rfl⟩ := of_reincarnation_mem hu
    -- Every stored value comes from a payload, so its target is the successor of its origin.
    obtain ⟨e', -, u', hu', hkey, hvalue, -⟩ := hs.source _ _ _ (winner_of_reincarnationRecord hstored)
    obtain ⟨v', rfl⟩ := eq_reincarnation_of_key hkey
    obtain ⟨p', -, -, rfl⟩ := of_reincarnation_mem hu'
    have hstored' : reincarnationValue p' = stored.value := ClaimValue.reincarnation.inj hvalue
    simp only [ClaimUpdate.sameContent, Folded.mapValue, Bool.and_eq_true, beq_iff_eq, ← hstored',
      reincarnationValue] at hsame
    show ClaimValue.reincarnation stored.value = ClaimValue.reincarnation (reincarnationValue p)
    rw [← hstored', reincarnationValue, reincarnationValue, hsame.1.1, hsame.1.2, hsame.2]
  | _ => exact beq_iff_eq.mp hsame

end Content

/-! ### The rule -/

namespace Registry

/-- The rule for one record: a duplicate holds every claim key with the value it would store, and a
record that meets another value of its generation is refused. -/
structure SameGeneration (s : RegistryState) (e : Evidence) (disposition : IngestDisposition) : Prop where
  duplicate : disposition = .duplicate → ∀ u ∈ claimsOf e.key e.payload, ∃ f,
    s.lookup (u.key e.key) = some f ∧ f.metadata.generation = e.header.generation ∧
      f.value = u.value
  refused : ∀ u ∈ claimsOf e.key e.payload, ∀ f, s.lookup (u.key e.key) = some f →
    f.metadata.generation = e.header.generation → f.value ≠ u.value →
      disposition.isAccepted = false

section Rule

variable {r : Registry} {e : Evidence} {t : Timestamp} {io : Store.AppendIo}

/-- What is accepted was admitted and decided so. -/
theorem admitted_of_isAccepted (h : (r.ingest e t io).2.disposition.isAccepted = true) :
    ∃ m, r.admitRecord e t true = .ok m ∧ (r.ingest e t io).2.disposition =
      (decideEvidence r.limits r.state r.labelIndex m e.payload).disposition := by
  have hjudge : (r.ingest e t io).2.disposition = r.judge e t true := by
    rcases r.disposition_ingestLocked e t true true io with heq | ⟨-, heq⟩
    · exact heq
    · exact absurd ((congrArg IngestDisposition.isAccepted heq).symm.trans h) (by decide)
  rw [hjudge] at h
  obtain ⟨hclosed, m, hm, -⟩ := of_isAccepted_judge h
  refine ⟨m, hm, hjudge.trans ?_⟩
  unfold judge
  simp only [hclosed, Bool.false_eq_true, if_false, hm]

/-- A duplicate is reported as such. -/
theorem disposition_of_duplicate (hclosed : r.closed = false) (hm : r.admitRecord e t true = .ok m)
    (h : (decideEvidence r.limits r.state r.labelIndex m e.payload).disposition = .duplicate) :
    (r.ingest e t io).2.disposition = .duplicate := by
  rw [ingest, ingestLocked_of_admitted hclosed hm, (conclude_spec e true _ _).2.1]
  unfold commit
  simp only [not_apply_of_duplicate h, Bool.false_and, Bool.false_eq_true, if_false]
  exact h

/-- A record of a source that has stored a claim is admitted if its shape is valid. -/
theorem admitted_of_stored {limits : Limits} {es : List Evidence}
    (hs : Consistent limits es r.state) (hshape : validateEvidenceShape e r.limits = .ok ())
    {k : ClaimKey} (hk : k.owner = e.key) (hf : r.state.lookup k = some f) :
    ∃ m, r.admitRecord e t true = .ok m := by
  have hwinner : r.state.winner k = some (f.metadata.blur coreBlur, f.value) := by
    unfold RegistryState.winner
    rw [hf]
    rfl
  have hsession := hs.owned.session _ _ hwinner
  rw [hk] at hsession
  obtain ⟨source, hsource, -⟩ := hs.sourced.known _ hsession
  have hsource' : r.state.sources[e.header.source]? = some source := hsource
  have hdescribed := (hs.sourced.described _ _ hsource).1
  refine ⟨attestationOf e source.descriptor.authority t true, ?_⟩
  unfold admitRecord
  simp only [hshape, hsource', hdescribed, hsession, Bool.not_true, Bool.false_eq_true, if_false]

theorem admitRecord_meta (h : r.admitRecord e t true = .ok m) :
    m.owner = e.key ∧ m.generation = e.header.generation := by
  obtain ⟨-, ⟨source, -, -, rfl⟩, -⟩ := admitRecord_eq_ok h
  exact ⟨rfl, rfl⟩

/-- A reworded lifecycle claim passes as a duplicate. -/
theorem duplicate_of_reworded {p : SetLifecyclePayload} {f : Folded LifecycleValue}
    (hm : m.owner = e.key ∧ m.generation = e.header.generation) (hp : e.payload = .setLifecycle p)
    (hf : r.state.lookup (.lifecycle p.object e.key) = some (f.mapValue .lifecycle))
    (hg : f.metadata.generation = e.header.generation) (haction : f.value.action = p.action)
    (hreason : f.value.reason = p.reason) :
    (decideEvidence r.limits r.state r.labelIndex m e.payload).disposition = .duplicate := by
  have hmet : claimOutcome r.state m
      (.lifecycle p.object ⟨p.objectIncarnation, p.action, p.reason⟩) = .duplicate := by
    rw [← hm.1] at hf
    rw [claimOutcome_of_generation hf (hg.trans hm.2.symm)]
    simp [ClaimUpdate.sameContent, Folded.mapValue, haction, hreason]
  rw [← existingOutcome_lifecycle] at hmet
  rw [hp]
  unfold decideEvidence decideSetLifecycle
  dsimp only at hmet ⊢
  rw [hmet]
  rfl

/-- **Same generation, same content**, for exactly the records that do not reword a stored lifecycle
claim. -/
theorem same_generation_iff {options : RegistryOptions} {requests : List Request}
    {es : List Evidence} (h : r.ReachedBy options requests es) :
    SameGeneration r.state e (r.ingest e t io).2.disposition ↔
      (validateEvidenceShape e options.limits = .ok () → ¬ Reworded r.state e) := by
  obtain ⟨-, hindexed, hconfig, hoptions, id, openedAt, htrace⟩ := h.trace
  have hconsistent := htrace.consistent
  have hlimits : r.limits = options.limits := by
    rw [hconfig.limits, hoptions]
  rw [← hlimits]
  constructor
  · rintro hrule hshape ⟨p, f, hp, hf, hg, haction, hreason, hne⟩
    have hlookup : r.state.lookup (.lifecycle p.object e.key) = some (f.mapValue .lifecycle) := by
      simp [RegistryState.lookup, hf]
    obtain ⟨m, hm⟩ : ∃ m, r.admitRecord e t true = .ok m :=
      admitted_of_stored hconsistent hshape rfl hlookup
    have hdup : (r.ingest e t io).2.disposition = .duplicate :=
      disposition_of_duplicate hconfig.closed hm (duplicate_of_reworded
        (admitRecord_meta hm) hp hlookup hg haction hreason)
    obtain ⟨f', hf', -, hvalue⟩ := hrule.duplicate hdup
      (.lifecycle p.object ⟨p.objectIncarnation, p.action, p.reason⟩) (by simp [hp, claimsOf])
    obtain rfl := Option.some.inj (hlookup.symm.trans hf')
    exact hne (congrArg LifecycleValue.objectIncarnation (ClaimValue.lifecycle.inj hvalue))
  · intro hcond
    refine ⟨fun hdup u hu => ?_, fun u hu f hf hg hne => ?_⟩
    · obtain ⟨m, hm, hdisp⟩ := admitted_of_isAccepted (congrArg IngestDisposition.isAccepted hdup)
      obtain ⟨howner, hgeneration⟩ := admitRecord_meta hm
      rw [← howner] at hu
      obtain ⟨f, hf, hg, hsame⟩ :=
        of_claimOutcome_duplicate (claimOutcome_of_duplicate (hdisp.symm.trans hdup) hu)
      rw [howner] at hu hf
      rw [hgeneration] at hg
      exact ⟨f, hf, hg, value_of_sameContent hconsistent.grounded
        (hcond (admitRecord_eq_ok hm).1) hu hf hg hsame⟩
    · refine Bool.eq_false_of_not_eq_true fun haccepted => hne ?_
      obtain ⟨m, hm, hdisp⟩ := admitted_of_isAccepted haccepted
      obtain ⟨howner, hgeneration⟩ := admitRecord_meta hm
      rw [hdisp] at haccepted
      have hmet := ((isAccepted_decideEvidence_iff hindexed e.payload).mp haccepted u
        (howner ▸ hu)).1
      rw [claimOutcome_of_generation (howner ▸ hf) (hg.trans hgeneration.symm)] at hmet
      have hsame : u.sameContent f.value = true := by
        by_contra hdiffers
        exact hmet (if_neg hdiffers)
      exact value_of_sameContent hconsistent.grounded (hcond (admitRecord_eq_ok hm).1) hu hf hg hsame

end Rule

/-- A lifecycle word about an incarnation of object 8. -/
def sampleQuarantine (incarnation : ObjectIncarnation) : EvidencePayload :=
  .setLifecycle { object := .fromParts 0 8, objectIncarnation := incarnation, action := .quarantined }

def sampleFirst (payload : EvidencePayload) : List Request :=
  [sampleOpen 1 1 5, sampleIngest 1 1 1 payload]

theorem same_generation_iff_sample :
    ∃ (r : Registry) (es : List Evidence), r.ReachedBy {} (sampleFirst (sampleObject 8)) es ∧
      (r.ingest (sampleRecord 1 1 1 (sampleObject 8)) 4 .written).2.disposition = .duplicate ∧
      SameGeneration r.state (sampleRecord 1 1 1 (sampleObject 8)) .duplicate := by
  obtain ⟨r, es, hr, hp⟩ := exists_reached {} (sampleFirst (sampleObject 8))
    (fun r _ => decide ((r.ingest (sampleRecord 1 1 1 (sampleObject 8)) 4 .written).2.disposition =
      .duplicate)) (by decide +kernel)
  have hdup := of_decide_eq_true hp
  have hrule : SameGeneration r.state (sampleRecord 1 1 1 (sampleObject 8))
      (r.ingest (sampleRecord 1 1 1 (sampleObject 8)) 4 .written).2.disposition := by
    refine (same_generation_iff hr).mpr fun _ hreworded => ?_
    obtain ⟨p, -, hpayload, -⟩ := hreworded
    exact absurd hpayload (by simp [sampleRecord, sampleObject])
  rw [hdup] at hrule
  exact ⟨r, es, hr, hdup, hrule⟩

/-- A lifecycle word at a stored generation, about another incarnation, is a duplicate and not
refused; what is stored is not what it says. -/
theorem reworded_lifecycle_is_duplicate :
    ∃ (r : Registry) (es : List Evidence), r.ReachedBy {} (sampleFirst (sampleQuarantine 1)) es ∧
      (r.ingest (sampleRecord 1 1 1 (sampleQuarantine 2)) 4 .written).2.disposition = .duplicate ∧
      ((r.state.lookup (.lifecycle (.fromParts 0 8) ⟨.fromParts 0 1, 1⟩)).map (·.value) =
        some (.lifecycle ⟨1, .quarantined, []⟩)) := by
  obtain ⟨r, es, hr, hp⟩ := exists_reached {} (sampleFirst (sampleQuarantine 1))
    (fun r _ => decide ((r.ingest (sampleRecord 1 1 1 (sampleQuarantine 2)) 4 .written).2.disposition =
        .duplicate) &&
      decide ((r.state.lookup (.lifecycle (.fromParts 0 8) ⟨.fromParts 0 1, 1⟩)).map (·.value) =
        some (.lifecycle ⟨1, .quarantined, []⟩))) (by decide +kernel)
  rw [Bool.and_eq_true, decide_eq_true_eq, decide_eq_true_eq] at hp
  exact ⟨r, es, hr, hp.1, hp.2⟩

end Registry

end CableRegistry
