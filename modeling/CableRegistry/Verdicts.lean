import CableRegistry.Fencing
import CableRegistry.Winners

/-!
# What a verdict reads

The incarnation of an object and the verdict on its lifecycle read the winners of the
lifecycle and reincarnation keys of that object, where the session is not fenced, and nothing
else.  A winner of a session that is not fenced *stands* (`RegistryState.standing`), and two
states in which the same words about an object stand (`SameWords`) judge it alike
(`SameWords.verdict`).

What follows says which steps leave the words about an object: a step that opens no session,
a record that is not about its lifecycle, and a session that fences none of them.
-/

open Std (ExtTreeMap)

namespace CableRegistry

/-! ### Winners that stand -/

/-- The winner of a key, unless its session is fenced. -/
def RegistryState.standing (s : RegistryState) (k : ClaimKey) : Option (Attestation × ClaimValue) :=
  if sessionIsFenced s k.owner then none else s.winner k

section Standing

variable {s s' : RegistryState} {k : ClaimKey}

theorem standing_eq_some {w : Attestation × ClaimValue} :
    s.standing k = some w ↔ s.winner k = some w ∧ sessionIsFenced s k.owner = false := by
  unfold RegistryState.standing
  cases sessionIsFenced s k.owner <;> simp

theorem standing_congr (hwinner : s'.winner k = s.winner k)
    (hfenced : sessionIsFenced s' k.owner = sessionIsFenced s k.owner) :
    s'.standing k = s.standing k := by
  unfold RegistryState.standing
  rw [hwinner, hfenced]

/-- What an outline holds at a key whose session is not fenced. -/
theorem lookup_outline_iff {f : Folded ClaimValue} :
    s.outline.lookup k = some f ∧ sessionIsFenced s k.owner = false ↔
      ∃ w, s.standing k = some w ∧ f = ⟨w.1, w.2, [], 0⟩ := by
  simp only [standing_eq_some, lookup_outline, RegistryState.winner]
  cases s.lookup k with
  | none => simp
  | some g =>
    simp only [Option.map_some, Option.some.injEq]
    constructor
    · rintro ⟨rfl, hfenced⟩
      exact ⟨_, ⟨rfl, hfenced⟩, rfl⟩
    · rintro ⟨_, ⟨rfl, hfenced⟩, rfl⟩
      exact ⟨rfl, hfenced⟩

theorem lookup_outline_of_standing (h : s'.standing k = s.standing k) (f : Folded ClaimValue) :
    s'.outline.lookup k = some f ∧ sessionIsFenced s' k.owner = false ↔
      s.outline.lookup k = some f ∧ sessionIsFenced s k.owner = false := by
  rw [lookup_outline_iff, lookup_outline_iff, h]

end Standing

/-! ### Words about an object -/

/-- The same words about the object stand. -/
structure SameWords (s s' : RegistryState) (object : ObjectId) : Prop where
  lifecycle : ∀ owner, s'.standing (.lifecycle object owner) = s.standing (.lifecycle object owner)
  reincarnation : ∀ owner,
    s'.standing (.reincarnation object owner) = s.standing (.reincarnation object owner)

theorem map_mapValue_eq_some {ν : Type} {c : ν → ClaimValue} (hc : Function.Injective c)
    {o : Option (Folded ν)} {f : Folded ν} :
    o.map (Folded.mapValue c) = some (f.mapValue c) ↔ o = some f := by
  constructor
  · intro h
    exact eq_of_lookup hc h
  · rintro rfl
    rfl

section Words

variable {s s' : RegistryState} {object : ObjectId}

theorem SameWords.outline (h : SameWords s s' object) :
    objectIncarnationOf s'.outline object = objectIncarnationOf s.outline object ∧
      lifecycleActionOf s'.outline object = lifecycleActionOf s.outline object := by
  refine lifecycleActionOf_congr ?_ ?_
  · refine unfenced_congr fun owner f => ?_
    have hsame := lookup_outline_of_standing (h.lifecycle owner) (f.mapValue .lifecycle)
    simp only [RegistryState.lookup,
      map_mapValue_eq_some fun _ _ he => ClaimValue.lifecycle.inj he] at hsame
    exact hsame
  · refine unfenced_congr fun owner f => ?_
    have hsame := lookup_outline_of_standing (h.reincarnation owner) (f.mapValue .reincarnation)
    simp only [RegistryState.lookup,
      map_mapValue_eq_some fun _ _ he => ClaimValue.reincarnation.inj he] at hsame
    exact hsame

/-- **Where the same words stand, the verdict is the same**, and so is the incarnation. -/
theorem SameWords.verdict (h : SameWords s s' object) :
    objectIncarnationOf s' object = objectIncarnationOf s object ∧
      (lifecycleActionOf s' object).action = (lifecycleActionOf s object).action ∧
      (lifecycleActionOf s' object).conflicting = (lifecycleActionOf s object).conflicting := by
  obtain ⟨hi, ha⟩ := h.outline
  rw [objectIncarnationOf_outline, objectIncarnationOf_outline] at hi
  refine ⟨hi, ?_, ?_⟩
  · rw [← lifecycleActionOf_outline, ha, lifecycleActionOf_outline]
  · rw [← lifecycleConflicting_outline, ha, lifecycleConflicting_outline]

end Words

/-! ### Steps that leave the words -/

section Steps

variable {limits : Limits} {historyPerKey : UInt32} {s s' : RegistryState} {object : ObjectId}
  {e : Evidence} {m : Attestation}

theorem SameWords.of_sameWinners (h : SameWinners s s') (object : ObjectId) :
    SameWords s s' object :=
  ⟨fun _ => standing_congr (h.winner _) (sessionIsFenced_congr h.sources _),
    fun _ => standing_congr (h.winner _) (sessionIsFenced_congr h.sources _)⟩

/-- The object whose lifecycle the record is about. -/
def EvidencePayload.lifecycleObject : EvidencePayload → Option ObjectId
  | .setLifecycle p => some p.object
  | .reincarnateObject p => some p.object
  | _ => none

theorem lifecycleObject_of_mem {owner : SourceIncarnationKey} {payload : EvidencePayload}
    {u : ClaimUpdate} (hu : u ∈ claimsOf owner payload)
    (hk : u.key owner = .lifecycle object owner ∨ u.key owner = .reincarnation object owner) :
    payload.lifecycleObject = some object := by
  cases payload with
  | setLifecycle p =>
    obtain rfl := List.mem_singleton.mp hu
    simpa [ClaimUpdate.key, EvidencePayload.lifecycleObject] using hk
  | reincarnateObject p =>
    obtain rfl := List.mem_singleton.mp hu
    simpa [ClaimUpdate.key, EvidencePayload.lifecycleObject] using hk
  | attach p =>
    rcases position_of_mem rfl hu with ⟨subject, v, rfl⟩ | ⟨key, v, rfl⟩ <;>
      simp [ClaimUpdate.key] at hk
  | detach p =>
    rcases position_of_mem rfl hu with ⟨subject, v, rfl⟩ | ⟨key, v, rfl⟩ <;>
      simp [ClaimUpdate.key] at hk
  | move p =>
    rcases position_of_mem rfl hu with ⟨subject, v, rfl⟩ | ⟨key, v, rfl⟩ <;>
      simp [ClaimUpdate.key] at hk
  | _ =>
    obtain rfl := List.mem_singleton.mp hu
    simp [ClaimUpdate.key] at hk

/-- **A record that is not about the lifecycle of the object leaves the words about it.** -/
theorem Accepts.sameWords (h : Accepts limits historyPerKey s e m s')
    (hobject : e.payload.lifecycleObject ≠ some object) : SameWords s s' object := by
  have hkeep : ∀ k : ClaimKey, (∀ u ∈ claimsOf e.key e.payload, u.key e.key ≠ k) →
      s'.standing k = s.standing k := by
    intro k hk
    refine standing_congr ?_ (sessionIsFenced_congr h.sources _)
    unfold RegistryState.winner
    rw [h.lookup_of_not_claimed hk]
  refine ⟨fun owner => hkeep _ fun u hu hk => ?_, fun owner => hkeep _ fun u hu hk => ?_⟩
  · obtain rfl : e.key = owner := by
      rw [← owner_key_of_mem_claimsOf hu, hk]
      rfl
    exact hobject (lifecycleObject_of_mem hu (.inl hk))
  · obtain rfl : e.key = owner := by
      rw [← owner_key_of_mem_claimsOf hu, hk]
      rfl
    exact hobject (lifecycleObject_of_mem hu (.inr hk))

/-- **A session leaves the words about an object where none of them is of an earlier session of
its source.** -/
theorem sameWords_openState {d : SourceDescriptor} {i : Incarnation} (t : Timestamp)
    (h : ∀ owner : SourceIncarnationKey, owner.source = d.id → owner.incarnation < i →
      s.standing (.lifecycle object owner) = none ∧ s.standing (.reincarnation object owner) = none) :
    SameWords s (Registry.openState s d i t) object := by
  have hkeep : ∀ k : ClaimKey, (k.owner.source = d.id → k.owner.incarnation < i →
      s.standing k = none) → (Registry.openState s d i t).standing k = s.standing k := by
    intro k hnone
    have hwinner : (Registry.openState s d i t).winner k = s.winner k := by
      unfold RegistryState.winner
      rw [Registry.openState_lookup]
    by_cases hk : k.owner.source = d.id ∧ k.owner.incarnation < i
    · rw [hnone hk.1 hk.2]
      unfold RegistryState.standing
      rw [sessionIsFenced_openState]
      simp [hk.1, hk.2]
    · refine standing_congr hwinner ?_
      rw [sessionIsFenced_openState]
      have hfalse : (k.owner.source == d.id && decide (k.owner.incarnation < i)) = false := by
        rw [Bool.eq_false_iff]
        simpa using hk
      rw [hfalse, Bool.or_false]
  exact ⟨fun owner => hkeep _ fun hs hi => (h owner hs hi).1,
    fun owner => hkeep _ fun hs hi => (h owner hs hi).2⟩

end Steps

end CableRegistry
