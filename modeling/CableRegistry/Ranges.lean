import CableRegistry.Catalogue
import CableRegistry.Consistency

/-!
# Ranges

The incarnation a replacement leads to is one more than the incarnation it replaces.  The sum
is taken in 64 bits, in the shape check as well as in the stored value, so the largest
incarnation passes the check and leads to zero (`inRange_iff_of_shape`).

A zero target is not above the incarnation of any object.  Where the object is registered such a
record never becomes a winner; where it is not, it does.

* `reincarnations_inRange`: in a run that never replaces the largest incarnation of an object
  that is not registered, every stored reincarnation is in range.
-/

namespace CableRegistry

/-! ### A replacement -/

/-- The target follows the replaced incarnation, as numbers, and is supported. -/
structure ReincarnationValue.InRange (v : ReincarnationValue) : Prop where
  positive : 1 ≤ v.fromIncarnation.toNat
  next : v.target.toNat = v.fromIncarnation.toNat + 1
  supported : v.target.toNat ≤ kMaxObjectIncarnation.toNat

/-- The largest incarnation a publisher can send. -/
def largestIncarnation : ObjectIncarnation := 18446744073709551615

theorem toNat_add_one {i : UInt64} (h : i ≠ largestIncarnation) : (i + 1).toNat = i.toNat + 1 := by
  have hlt := i.toNat_lt
  have hne : i.toNat ≠ 18446744073709551615 := fun heq => h (UInt64.toNat_inj.mp heq)
  rw [UInt64.toNat_add]
  show (i.toNat + 1) % 2 ^ 64 = i.toNat + 1
  omega

variable {m : Attestation} {object : ObjectId} {s s' : RegistryState} {p : ReincarnateObjectPayload}
  {owner : SourceIncarnationKey}

/-- **What the shape check lets through is in range, except for the largest incarnation.** -/
theorem inRange_iff_of_shape {limits : Limits}
    (h : validatePayload (.reincarnateObject p) limits = .ok ()) :
    (reincarnationValue p).InRange ↔ p.fromIncarnation ≠ largestIncarnation := by
  simp only [validatePayload, refuseIf_bind_eq_ok, refuseIf_eq_ok, Bool.or_eq_false_iff,
    beq_eq_false_iff_ne, decide_eq_false_iff_not] at h
  obtain ⟨-, ⟨hpositive, hsupported⟩, -⟩ := h
  constructor
  · rintro ⟨-, hnext, -⟩ heq
    have hwraps : (p.fromIncarnation + 1).toNat = p.fromIncarnation.toNat + 1 := hnext
    rw [heq] at hwraps
    exact absurd hwraps (by decide)
  · intro hne
    refine ⟨?_, toNat_add_one hne, ?_⟩
    · exact Nat.one_le_iff_ne_zero.mpr fun hzero => hpositive (UInt64.toNat_inj.mp hzero)
    · exact UInt64.le_iff_toNat_le.mp (UInt64.not_lt.mp hsupported)

/-! ### Runs -/

/-- The request does not replace the largest incarnation of an object that is not registered. -/
def keepsRange (s : RegistryState) : Request → Bool
  | .ingest e _ _ =>
    match e.payload with
    | .reincarnateObject p => p.fromIncarnation != largestIncarnation || objectExists s p.object
    | _ => true
  | _ => true

/-- Every stored reincarnation is in range. -/
def ReincarnationsInRange (s : RegistryState) : Prop :=
  ∀ object owner f, OrdMap.find₂ s.reincarnationRecords object owner = some f → f.value.InRange

theorem winner_of_reincarnationRecord {s : RegistryState} {object : ObjectId}
    {owner : SourceIncarnationKey} {f : Folded ReincarnationValue}
    (h : OrdMap.find₂ s.reincarnationRecords object owner = some f) :
    s.winner (.reincarnation object owner) = some (f.metadata.blur coreBlur, .reincarnation f.value) := by
  simp [RegistryState.winner, RegistryState.lookup, h, Folded.mapValue]

theorem reincarnationRecord_of_winner {v : ReincarnationValue}
    (h : s.winner (.reincarnation object owner) = some (m, .reincarnation v)) :
    ∃ f, OrdMap.find₂ s.reincarnationRecords object owner = some f ∧ f.value = v := by
  obtain ⟨g, hg, heq⟩ := Option.map_eq_some_iff.mp h
  obtain ⟨f, hf, rfl⟩ := Option.map_eq_some_iff.mp hg
  exact ⟨f, hf, ClaimValue.reincarnation.inj (Prod.mk.inj heq).2⟩

/-- The winners as they were. -/
theorem ReincarnationsInRange.of_winner (h : ReincarnationsInRange s) (hw : s'.winner = s.winner) :
    ReincarnationsInRange s' := by
  intro object owner f hf
  have hwin := winner_of_reincarnationRecord hf
  rw [hw] at hwin
  obtain ⟨f₀, hf₀, hv⟩ := reincarnationRecord_of_winner hwin
  rw [← hv]
  exact h object owner f₀ hf₀

theorem eq_reincarnation_of_key {u : ClaimUpdate} {owner' : SourceIncarnationKey}
    (h : u.key owner = .reincarnation object owner') : ∃ v, u = .reincarnation object v := by
  cases u <;> simp [ClaimUpdate.key] at h
  obtain ⟨rfl, -⟩ := h
  exact ⟨_, rfl⟩

/-- The target of the largest incarnation is zero, which every registered object has reached. -/
theorem not_insert_of_largest (hexists : objectExists s p.object = true)
    (hlargest : p.fromIncarnation = largestIncarnation) :
    resolvedOutcome s m (.reincarnation p.object (reincarnationValue p)) ≠ .insert := by
  have hzero : (reincarnationValue p).target = 0 := by
    unfold reincarnationValue
    rw [hlargest]
    rfl
  have hreached : targetReached s (.reincarnation p.object (reincarnationValue p)) = true := by
    simp [targetReached, hexists, hzero]
  intro ho
  unfold resolvedOutcome at ho
  split at ho
  · exact absurd ho (by simp)
  · rename_i hnot
    exact hnot ⟨ho, hreached⟩

/-- **A record keeps the range**, if the request it came with does. -/
theorem ReincarnationsInRange.accepts {limits : Limits} {historyPerKey : UInt32} {e : Evidence}
    {t : Timestamp} {io : Store.AppendIo} (h : ReincarnationsInRange s)
    (ha : Accepts limits historyPerKey s e m s') (hc : keepsRange s (.ingest e t io) = true) :
    ReincarnationsInRange s' := by
  intro object owner f hf
  have hwin := winner_of_reincarnationRecord hf
  rcases winner_cases ha (.reincarnation object owner) with heq | ⟨u, hu, hk, ho, heq⟩
  · rw [heq] at hwin
    obtain ⟨f₀, hf₀, hv⟩ := reincarnationRecord_of_winner hwin
    rw [← hv]
    exact h object owner f₀ hf₀
  · -- The new winner is the value of a reincarnation record.
    rw [heq] at hwin
    have hvalue := (Prod.mk.inj (Option.some.inj hwin)).2
    obtain ⟨v, rfl⟩ := eq_reincarnation_of_key hk
    obtain ⟨p, hp, rfl, rfl⟩ := of_reincarnation_mem hu
    rw [← ClaimValue.reincarnation.inj hvalue]
    have hshape := payload_of_shape ha.shape
    rw [hp] at hshape
    refine (inRange_iff_of_shape hshape).mpr fun hlargest => ?_
    have hexists : objectExists s p.object = true := by
      simpa [keepsRange, hp, hlargest] using hc
    exact absurd ho (not_insert_of_largest hexists hlargest)

namespace Registry

/-- **Stored reincarnations are in range**, in every state of a run that never replaces the
largest incarnation of an object that is not registered. -/
theorem reincarnations_inRange {r : Registry} {options : RegistryOptions} {requests : List Request}
    {es : List Evidence} (h : r.ReachedUnder keepsRange options requests es) :
    ReincarnationsInRange r.state := by
  refine h.induction (motive := fun _ s => ReincarnationsInRange s) ?_ ?_
  · intro id openedAt object owner f hf
    simp [OrdMap.find₂] at hf
  · intro es s q es' s' _ _ hc hs heffect
    rcases heffect.winner_cases with hw | ⟨e, m, t, io, rfl, ha⟩
    · exact hs.of_winner hw
    · exact hs.accepts ha hc

/-- A session opens and replaces an incarnation of object 9, which is not registered. -/
def sampleReplacement (replaced : ObjectIncarnation) : List Request :=
  [sampleOpen 1 1 5, sampleIngest 1 1 1
    (.reincarnateObject { object := .fromParts 0 9, fromIncarnation := replaced })]

theorem reincarnations_inRange_sample :
    ∃ (r : Registry) (es : List Evidence), r.ReachedUnder keepsRange {} (sampleReplacement 4) es ∧
      ReincarnationsInRange r.state ∧
      ∃ f, OrdMap.find₂ r.state.reincarnationRecords (.fromParts 0 9) ⟨.fromParts 0 1, 1⟩ = some f ∧
        f.value.target = 5 := by
  obtain ⟨r, es, hr, hp⟩ := exists_reachedUnder keepsRange {} (sampleReplacement 4)
    (fun r => (OrdMap.find₂ r.state.reincarnationRecords (.fromParts 0 9) ⟨.fromParts 0 1, 1⟩).any
      (·.value.target == 5)) (by decide +kernel)
  obtain ⟨f, hf, htarget⟩ := (Option.any_eq_true _ _).mp hp
  exact ⟨r, es, hr, reincarnations_inRange hr, f, hf, beq_iff_eq.mp htarget⟩

/-- The largest incarnation of an object that is not registered is replaced, and the stored
target is zero. -/
theorem largest_incarnation_stored :
    ∃ (r : Registry) (es : List Evidence),
      r.ReachedBy {} (sampleReplacement largestIncarnation) es ∧
      ∃ f, OrdMap.find₂ r.state.reincarnationRecords (.fromParts 0 9) ⟨.fromParts 0 1, 1⟩ = some f ∧
        f.value.fromIncarnation = largestIncarnation ∧ f.value.target = 0 ∧ ¬ f.value.InRange := by
  obtain ⟨r, es, hr, hp⟩ := exists_reached {} (sampleReplacement largestIncarnation)
    (fun r _ => (OrdMap.find₂ r.state.reincarnationRecords (.fromParts 0 9) ⟨.fromParts 0 1, 1⟩).any
      fun f => f.value.fromIncarnation == largestIncarnation && f.value.target == 0)
    (by decide +kernel)
  obtain ⟨f, hf, hvalue⟩ := (Option.any_eq_true _ _).mp hp
  rw [Bool.and_eq_true, beq_iff_eq, beq_iff_eq] at hvalue
  refine ⟨r, es, hr, f, hf, hvalue.1, hvalue.2, ?_⟩
  intro hrange
  have hnext := hrange.next
  rw [hvalue.1, hvalue.2] at hnext
  exact absurd hnext (by decide)

end Registry

end CableRegistry
