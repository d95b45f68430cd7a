import CableRegistry.ImageRoundTrip
import CableRegistry.Inspection

/-!
# Derived bounds

Seven of the bounds that decoders put on a count are products of two limits, taken in 32 bits.
`validateLimits` requires the factors to be positive and caps three limits, but no two of the factors
jointly, so a product can wrap around: the bound is then smaller than the mathematical product, down
to zero, and the decoder refuses what the registry itself has written.

* `toNat_mul_eq_iff`: a product of words is exact when the first factor is at most the quotient of
  the largest word by the second.
* `derivedBounds_exact_iff`: so the bounds are exact when five pairs of limits pass that check.
* `RegistryState.ImageCounts.derived`: these are the bounds of the decoders.
-/

open Std

namespace CableRegistry

/-- A word is at most the quotient of the largest word by another when the product does not wrap. -/
theorem toNat_mul_eq_iff (a : UInt32) {b : UInt32} (hb : b ≠ 0) :
    (a * b).toNat = a.toNat * b.toNat ↔ a ≤ 0xFFFFFFFF / b := by
  have hpos : 0 < b.toNat := Nat.pos_of_ne_zero fun hzero => hb (UInt32.toNat_inj.mp hzero)
  have hquotient : a ≤ 0xFFFFFFFF / b ↔ a.toNat * b.toNat ≤ 2 ^ 32 - 1 := by
    rw [UInt32.le_iff_toNat_le, UInt32.toNat_div, Nat.le_div_iff_mul_le hpos]
    rfl
  rw [hquotient, UInt32.toNat_mul]
  constructor
  · intro h
    have hlt := Nat.mod_lt (a.toNat * b.toNat) (show 2 ^ 32 > 0 by decide)
    omega
  · intro h
    exact Nat.mod_eq_of_lt (by omega)

/-- A bound for each of the counts that are limited by a product. -/
structure DerivedBounds (α : Type) where
  sessions : α
  subjectKeys : α
  portKeys : α
  slotsPerPort : α
  portCapabilityKeys : α
  overriddenClaims : α
  fencedSessions : α
  deriving DecidableEq

def DerivedBounds.map {α β : Type} (f : α → β) (b : DerivedBounds α) : DerivedBounds β :=
  ⟨f b.sessions, f b.subjectKeys, f b.portKeys, f b.slotsPerPort, f b.portCapabilityKeys,
    f b.overriddenClaims, f b.fencedSessions⟩

/-- The bounds as the decoders compute them. -/
def derivedBounds (limits : Limits) : DerivedBounds UInt32 where
  sessions := limits.maxSources * 64
  subjectKeys := limits.maxObjects * limits.maxSidesPerObject
  portKeys := limits.maxEndpoints * limits.maxPortsPerEndpoint
  slotsPerPort := limits.maxSources * limits.maxPortSimultaneousAttachments
  portCapabilityKeys := limits.maxEndpoints * limits.maxPortsPerEndpoint
  overriddenClaims := limits.maxHistoryPerKey * limits.maxClaimRecordsPerPort
  fencedSessions := limits.maxSources * 64

/-- The products themselves. -/
def productBounds (limits : Limits) : DerivedBounds Nat where
  sessions := limits.maxSources.toNat * 64
  subjectKeys := limits.maxObjects.toNat * limits.maxSidesPerObject.toNat
  portKeys := limits.maxEndpoints.toNat * limits.maxPortsPerEndpoint.toNat
  slotsPerPort := limits.maxSources.toNat * limits.maxPortSimultaneousAttachments.toNat
  portCapabilityKeys := limits.maxEndpoints.toNat * limits.maxPortsPerEndpoint.toNat
  overriddenClaims := limits.maxHistoryPerKey.toNat * limits.maxClaimRecordsPerPort.toNat
  fencedSessions := limits.maxSources.toNat * 64

section Decoders

variable {limits : Limits}

/-- A state image that the decoder accepts is within the derived bounds. -/
theorem RegistryState.ImageCounts.derived {s : RegistryState} (h : s.ImageCounts limits) :
    s.sessions.size ≤ (derivedBounds limits).sessions.toNat ∧
    s.subjectRecords.size ≤ (derivedBounds limits).subjectKeys.toNat ∧
    s.portRecords.size ≤ (derivedBounds limits).portKeys.toNat ∧
    (∀ e ∈ s.portRecords.toList, e.2.size ≤ (derivedBounds limits).slotsPerPort.toNat) ∧
    s.portCapabilityRecords.size ≤ (derivedBounds limits).portCapabilityKeys.toNat :=
  ⟨h.sessions, h.subjectRecords.1, h.portRecords.1, h.portRecords.2, h.portCapabilityRecords.1⟩

/-- The pairs of limits whose product is a word. -/
structure Limits.Multiplicable (limits : Limits) : Prop where
  sessions : limits.maxSources ≤ 0xFFFFFFFF / 64
  subjectKeys : limits.maxObjects ≤ 0xFFFFFFFF / limits.maxSidesPerObject
  portKeys : limits.maxEndpoints ≤ 0xFFFFFFFF / limits.maxPortsPerEndpoint
  slotsPerPort : limits.maxSources ≤ 0xFFFFFFFF / limits.maxPortSimultaneousAttachments
  overriddenClaims : limits.maxHistoryPerKey ≤ 0xFFFFFFFF / limits.maxClaimRecordsPerPort

/-- **No derived bound wraps around when five pairs of limits are small enough**, and one does when
they are not. -/
theorem derivedBounds_exact_iff (h : limits.Valid) :
    (derivedBounds limits).map UInt32.toNat = productBounds limits ↔ limits.Multiplicable := by
  unfold Limits.Valid validateLimits requirePositive at h
  simp only [refuseIf_bind_eq_ok, beq_eq_false_iff_ne] at h
  obtain ⟨-, -, hports, hsides, -, hslots, hclaims, -⟩ := h
  have hsixtyFour : (64 : UInt32) ≠ 0 := by decide
  unfold DerivedBounds.map derivedBounds productBounds
  simp only [DerivedBounds.mk.injEq]
  constructor
  · rintro ⟨h₁, h₂, h₃, h₄, -, h₆, -⟩
    exact ⟨(toNat_mul_eq_iff _ hsixtyFour).mp h₁, (toNat_mul_eq_iff _ hsides).mp h₂,
      (toNat_mul_eq_iff _ hports).mp h₃, (toNat_mul_eq_iff _ hslots).mp h₄,
      (toNat_mul_eq_iff _ hclaims).mp h₆⟩
  · intro hm
    have hsessions := (toNat_mul_eq_iff _ hsixtyFour).mpr hm.sessions
    have hkeys := (toNat_mul_eq_iff _ hports).mpr hm.portKeys
    exact ⟨hsessions, (toNat_mul_eq_iff _ hsides).mpr hm.subjectKeys, hkeys,
      (toNat_mul_eq_iff _ hslots).mpr hm.slotsPerPort, hkeys,
      (toNat_mul_eq_iff _ hclaims).mpr hm.overriddenClaims, hsessions⟩

end Decoders

/-- The default limits derive exact bounds. -/
theorem derivedBounds_exact_iff_sample :
    ({} : Limits).Valid ∧ (derivedBounds {}).map UInt32.toNat = productBounds {} :=
  ⟨by decide, (derivedBounds_exact_iff (by decide)).mpr
    ⟨by decide, by decide, by decide, by decide, by decide⟩⟩

/-- With 2^26 sources the bound on sessions is zero: no image with a session is read, and no
inspection with a fenced one. -/
theorem sessions_bound_wraps :
    ∃ limits : Limits, limits.Valid ∧ (derivedBounds limits).sessions = 0 ∧
      (productBounds limits).sessions = 2 ^ 32 ∧
      (∀ s : RegistryState, s.ImageCounts limits → s.sessions.size = 0) ∧
      ∀ v : InspectionView, v.Readable limits → v.fencedSessions = [] := by
  refine ⟨{ maxSources := 67108864 }, by decide, by decide, by decide, ?_, ?_⟩
  · intro s hs
    exact Nat.le_zero.mp hs.derived.1
  · intro v hv
    exact List.eq_nil_of_length_eq_zero (Nat.le_zero.mp hv.fencedSessions)

end CableRegistry
