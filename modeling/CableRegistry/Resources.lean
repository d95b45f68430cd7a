import CableRegistry.Reopening
import CableRegistry.Winners

/-!
# Bounded resources

How much a registry stores.  A `Gauge` measures a part of the state that only fresh claims make
larger: a claim about an object, an endpoint or a slot that has no record yet.  What a record adds to a gauge
is at most the number of its fresh claims (`Gauge.accepts`), and every other step leaves it
(`Gauge.quiet`).  A fresh claim of an accepted record has found room (`Accepts.hasRoom`).

* `catalogue_bounded`: objects, endpoints, sources, rings and the refusal audit stay within their
  limits along every run.
* `portClaims_bounded`: so do the claims about each port, in a run whose moves between two slots of
  one port find room for both.  The check of a move looks at each slot alone.
-/

open Std

namespace CableRegistry

/-! ### Groups -/

section Groups

variable {κ ι ν : Type} [Ord κ] [TransOrd κ] [Ord ι] [TransOrd ι] (historyPerKey : UInt32)
  (metadata : Attestation)

theorem size_insert_le {α : Type} (m : OrdMap κ α) (k : κ) (v : α) :
    (m.insert k v).size ≤ m.size + (!m.contains k).toNat := by
  rw [ExtTreeMap.size_insert]
  cases m.contains k <;> simp

/-- Writing over a key that is there. -/
theorem size_insert_of_find {α : Type} {m : OrdMap κ α} {k : κ} {old : α} (h : m[k]? = some old)
    (v : α) : (m.insert k v).size = m.size := by
  have hcontains : m.contains k = true := by
    rw [ExtTreeMap.contains_eq_isSome_getElem?, h]
    rfl
  rw [ExtTreeMap.size_insert, if_pos hcontains]

theorem size_fold_le (slots : OrdMap ι (Folded ν)) (i : ι) (value : ν) :
    (fold historyPerKey slots i metadata value).size ≤
      slots.size + (!slots.contains i).toNat := by
  unfold fold
  split <;> exact size_insert_le _ _ _

theorem size_foldLosing (slots : OrdMap ι (Folded ν)) (i : ι) :
    (foldLosing historyPerKey slots i metadata).size = slots.size := by
  unfold foldLosing
  split
  · rfl
  · rename_i folded hfound
    exact size_insert_of_find hfound _

theorem size_foldLosingGroup (groups : Groups κ ι ν) (k : κ) (i : ι) :
    (foldLosingGroup historyPerKey groups k i metadata).size = groups.size := by
  unfold foldLosingGroup
  split
  · rfl
  · rename_i slots hfound
    exact size_insert_of_find hfound _

/-- Nothing leaves a group. -/
theorem contains_foldGroup_of {groups : Groups κ ι ν} {k k' : κ} {i : ι} {value : ν}
    (h : groups.contains k' = true) :
    (foldGroup historyPerKey groups k i metadata value).contains k' = true := by
  unfold foldGroup
  rw [ExtTreeMap.contains_insert, h, Bool.or_true]

theorem contains_foldLosingGroup [LawfulEqOrd κ] [DecidableEq κ] (groups : Groups κ ι ν) (k k' : κ) (i : ι) :
    (foldLosingGroup historyPerKey groups k i metadata).contains k' = groups.contains k' := by
  unfold foldLosingGroup
  split
  · rfl
  · rename_i slots hfound
    rw [ExtTreeMap.contains_eq_isSome_getElem?, OrdMap.find_insert,
      ExtTreeMap.contains_eq_isSome_getElem?]
    split
    · rename_i hk
      rw [← hk, hfound]
      rfl
    · rfl

end Groups

/-! ### Gauges -/

/-- **A part of the state that only fresh claims make larger**, by one each.  No step makes a
claim fresh that was not. -/
structure Gauge where
  size : RegistryState → Nat
  fresh : RegistryState → ClaimUpdate → Bool
  ring : ∀ historyPerKey m s u, size (applyRing historyPerKey m s u) = size s
  write : ∀ historyPerKey m s u, size (applyWrite historyPerKey m s u) ≤ size s + (fresh s u).toNat
  fresh_ring : ∀ historyPerKey m s u u',
    fresh (applyRing historyPerKey m s u) u' = true → fresh s u' = true
  fresh_write : ∀ historyPerKey m s u u',
    fresh (applyWrite historyPerKey m s u) u' = true → fresh s u' = true
  sessions : ∀ s sessions, size { s with sessions := sessions } = size s
  quiet : ∀ limits s s', Quiet limits s s' → size s' = size s

variable {s : RegistryState} {historyPerKey : UInt32}

namespace Gauge

variable (g : Gauge) (historyPerKey : UInt32) (m : Attestation)

theorem foldl_rings (us : List ClaimUpdate) (s : RegistryState) :
    g.size (us.foldl (applyRing historyPerKey m) s) = g.size s ∧
      ∀ u, g.fresh (us.foldl (applyRing historyPerKey m) s) u = true → g.fresh s u = true := by
  induction us generalizing s with
  | nil => exact ⟨rfl, fun _ h => h⟩
  | cons u us ih =>
    obtain ⟨hsize, hfresh⟩ := ih (applyRing historyPerKey m s u)
    exact ⟨hsize.trans (g.ring historyPerKey m s u),
      fun u' h => g.fresh_ring historyPerKey m s u u' (hfresh u' h)⟩

/-- Writes that are fresh at most where they were in the beginning. -/
theorem foldl_writes (us : List ClaimUpdate) {s₀ : RegistryState}
    (h : ∀ u, g.fresh s u = true → g.fresh s₀ u = true) :
    g.size (us.foldl (applyWrite historyPerKey m) s) ≤ g.size s + us.countP (g.fresh s₀) := by
  induction us generalizing s with
  | nil => exact Nat.le_refl _
  | cons u us ih =>
    have hstep := g.write historyPerKey m s u
    have hrest := ih fun u' hu' => h u' (g.fresh_write historyPerKey m s u u' hu')
    have hone : (g.fresh s u).toNat ≤ (g.fresh s₀ u).toNat := by
      cases hu : g.fresh s u with
      | false => exact Nat.zero_le _
      | true => rw [h u hu]
    rw [List.foldl_cons, List.countP_cons]
    have htoNat : (if g.fresh s₀ u = true then 1 else 0) = (g.fresh s₀ u).toNat := by
      cases g.fresh s₀ u <;> rfl
    rw [htoNat]
    omega

/-- **A change adds at most its fresh writes.** -/
theorem applyChange (s : RegistryState) (change : StagedChange) :
    g.size (CableRegistry.applyChange historyPerKey s change) ≤
      g.size s + change.writes.countP (g.fresh s) := by
  obtain ⟨hsize, hfresh⟩ := g.foldl_rings historyPerKey change.metadata change.rings s
  unfold CableRegistry.applyChange
  rw [← hsize]
  exact g.foldl_writes historyPerKey change.metadata change.writes hfresh

end Gauge

section Accepted

variable {limits : Limits} {historyPerKey : UInt32} {s s' : RegistryState} {e : Evidence}
  {m : Attestation}

/-- **A record adds at most its fresh claims.** -/
theorem Gauge.accepts (g : Gauge) (h : Accepts limits historyPerKey s e m s') :
    g.size s' ≤ g.size s + (claimsOf e.key e.payload).countP fun u =>
      g.fresh s u && resolvedOutcome s m u == .insert := by
  obtain ⟨session, rfl⟩ := h.state
  rw [g.sessions]
  have hle := g.applyChange historyPerKey s
    (stagedBy m (resolvedOutcome s m) (claimsOf m.owner e.payload))
  have hcount : (stagedBy m (resolvedOutcome s m) (claimsOf m.owner e.payload)).writes.countP
      (g.fresh s) = (claimsOf e.key e.payload).countP fun u =>
        g.fresh s u && resolvedOutcome s m u == .insert := by
    rw [h.owner]
    exact List.countP_filter
  rw [hcount] at hle
  exact hle

/-- **A claim of an accepted record that is written has found room.** -/
theorem Accepts.hasRoom (h : Accepts limits historyPerKey s e m s') {u : ClaimUpdate}
    (hu : u ∈ claimsOf e.key e.payload) (ho : resolvedOutcome s m u = .insert) :
    HasRoom limits s u := by
  obtain ⟨index, hindex, haccepted⟩ := h.decided
  rw [← h.owner] at hu
  refine ((isAccepted_decideEvidence_iff hindex e.payload).mp haccepted u hu).2 ?_
  unfold resolvedOutcome at ho
  split at ho
  · exact absurd ho (by simp)
  · exact ho

/-- A gauge at which a record has at most one fresh claim, which finds room below a bound. -/
theorem Gauge.accepts_le (g : Gauge) (h : Accepts limits historyPerKey s e m s') {bound : Nat}
    (hle : g.size s ≤ bound)
    (hone : (claimsOf e.key e.payload).countP (g.fresh s) ≤ 1)
    (hroom : ∀ u ∈ claimsOf e.key e.payload, g.fresh s u = true → HasRoom limits s u →
      g.size s < bound) : g.size s' ≤ bound := by
  have hsize := g.accepts h
  by_cases hnone : ((claimsOf e.key e.payload).countP fun u =>
      g.fresh s u && resolvedOutcome s m u == .insert) = 0
  · rw [hnone] at hsize
    omega
  · obtain ⟨u, hu, hboth⟩ := List.countP_pos_iff.mp (Nat.pos_of_ne_zero hnone)
    rw [Bool.and_eq_true, beq_iff_eq] at hboth
    have hlt := hroom u hu hboth.1 (h.hasRoom hu hboth.2)
    have hmono : ((claimsOf e.key e.payload).countP fun u =>
        g.fresh s u && resolvedOutcome s m u == .insert) ≤
        (claimsOf e.key e.payload).countP (g.fresh s) :=
      List.countP_mono_left fun u _ h => (Bool.and_eq_true_iff.mp h).1
    omega

end Accepted

/-! ### The gauges of the catalogue -/

section OuterKeys

variable {κ ν : Type} [Ord κ] [TransOrd κ] [LawfulEqOrd κ] [DecidableEq κ]
  (groups : RegistryState → Groups κ SourceIncarnationKey ν) (target : ClaimUpdate → Option (κ × ν))

/-- The claim is about an outer key that has no record yet. -/
def freshKey (s : RegistryState) (u : ClaimUpdate) : Bool :=
  (target u).any fun entry => !(groups s).contains entry.1

/-- The number of outer keys of a group that claims with a target are about. -/
def outerKeys
    (hring : ∀ historyPerKey m s u, groups (applyRing historyPerKey m s u) =
      (target u).elim (groups s) fun entry =>
        foldLosingGroup historyPerKey (groups s) entry.1 m.owner m)
    (hwrite : ∀ historyPerKey m s u, groups (applyWrite historyPerKey m s u) =
      (target u).elim (groups s) fun entry =>
        foldGroup historyPerKey (groups s) entry.1 m.owner m entry.2)
    (hsessions : ∀ s sessions, groups { s with sessions := sessions } = groups s)
    (hquiet : ∀ limits s s', Quiet limits s s' → (groups s').size = (groups s).size) : Gauge where
  size s := (groups s).size
  fresh := freshKey groups target
  ring := by
    intro historyPerKey m s u
    rw [hring]
    cases target u with
    | none => rfl
    | some entry => exact size_foldLosingGroup _ _ _ _ _
  write := by
    intro historyPerKey m s u
    unfold freshKey
    rw [hwrite]
    cases target u with
    | none => exact Nat.le_refl _
    | some entry => exact size_insert_le _ _ _
  fresh_ring := by
    intro historyPerKey m s u u' h
    unfold freshKey at h ⊢
    rw [hring] at h
    cases htarget : target u with
    | none => rwa [htarget] at h
    | some entry =>
      simp only [htarget, Option.elim_some, contains_foldLosingGroup] at h
      exact h
  fresh_write := by
    intro historyPerKey m s u u' h
    obtain ⟨entry', htarget', hfresh⟩ := (Option.any_eq_true _ _).mp h
    refine (Option.any_eq_true _ _).mpr ⟨entry', htarget', ?_⟩
    rw [Bool.not_eq_true'] at hfresh ⊢
    refine Bool.eq_false_of_not_eq_true fun hold => ?_
    rw [hwrite] at hfresh
    cases htarget : target u with
    | none =>
      rw [htarget] at hfresh
      exact absurd (hold.symm.trans hfresh) (by simp)
    | some entry =>
      rw [htarget, Option.elim_some, contains_foldGroup_of _ _ hold] at hfresh
      exact absurd hfresh (by simp)
  sessions := fun s sessions => congrArg ExtTreeMap.size (hsessions s sessions)
  quiet := hquiet

end OuterKeys

/-- What a claim registers, if it registers an object. -/
def ClaimUpdate.registeredObject : ClaimUpdate → Option (ObjectId × ObjectRegistrationValue)
  | .objectRegistration object value => some (object, value)
  | _ => none

/-- What a claim registers, if it registers an endpoint. -/
def ClaimUpdate.registeredEndpoint : ClaimUpdate → Option (EndpointId × EndpointRegistrationValue)
  | .endpointRegistration endpoint value => some (endpoint, value)
  | _ => none

/-- The number of registered objects. -/
def objectGauge : Gauge :=
  outerKeys (·.objectRegistrations) ClaimUpdate.registeredObject
    (by intro _ _ _ u; cases u <;> rfl) (by intro _ _ _ u; cases u <;> rfl) (fun _ _ => rfl) (by
      intro limits s s' hq
      cases hq with
      | opened d i t hadm => rfl
      | touched key session hkey => rfl
      | restarted s₀ hcore =>
        have hsize := congrArg (fun s : RegistryState => s.objectRegistrations.size) hcore
        simpa [RegistryState.core, RegistryState.blur, RegistryState.reframe, clearVolatile] using hsize)

/-- The number of registered endpoints. -/
def endpointGauge : Gauge :=
  outerKeys (·.endpointRegistrations) ClaimUpdate.registeredEndpoint
    (by intro _ _ _ u; cases u <;> rfl) (by intro _ _ _ u; cases u <;> rfl) (fun _ _ => rfl) (by
      intro limits s s' hq
      cases hq with
      | opened d i t hadm => rfl
      | touched key session hkey => rfl
      | restarted s₀ hcore =>
        have hsize := congrArg (fun s : RegistryState => s.endpointRegistrations.size) hcore
        simpa [RegistryState.core, RegistryState.blur, RegistryState.reframe, clearVolatile] using hsize)

section Catalogue

variable {limits : Limits} {historyPerKey : UInt32} {s s' : RegistryState} {e : Evidence}
  {m : Attestation}

/-- Of a gauge that positions do not touch a record has at most one fresh claim. -/
theorem countP_fresh_le_one (g : Gauge) (hsubject : ∀ s subject v, g.fresh s (.subject subject v) = false)
    (hport : ∀ s key v, g.fresh s (.port key v) = false) (owner : SourceIncarnationKey)
    (payload : EvidencePayload) : (claimsOf owner payload).countP (g.fresh s) ≤ 1 := by
  have hposition : ∀ claim : PositionClaim, claim.claims.countP (g.fresh s) = 0 := by
    intro claim
    rw [List.countP_eq_zero]
    intro u hu
    simp only [PositionClaim.claims, List.mem_cons, List.mem_map] at hu
    rcases hu with rfl | ⟨update, -, rfl⟩
    · simp [hsubject]
    · simp [hport]
  cases payload with
  | attach p | detach p | move p =>
    simp only [claimsOf]
    rw [hposition]
    exact Nat.zero_le _
  | _ => exact List.countP_le_length

theorem objects_le (h : Accepts limits historyPerKey s e m s')
    (hle : s.objectRegistrations.size ≤ limits.maxObjects.toNat) :
    s'.objectRegistrations.size ≤ limits.maxObjects.toNat := by
  refine objectGauge.accepts_le h hle (countP_fresh_le_one objectGauge (fun _ _ _ => rfl)
    (fun _ _ _ => rfl) _ _) ?_
  intro u _ hfresh hroom
  obtain ⟨entry, htarget, hnew⟩ := (Option.any_eq_true _ _).mp hfresh
  cases u with
  | objectRegistration object value =>
    obtain rfl := Option.some.inj htarget
    rcases hroom.2 with hold | hlt
    · rw [hold] at hnew
      exact absurd hnew (by simp)
    · exact hlt
  | _ => exact absurd htarget (by simp [ClaimUpdate.registeredObject])

theorem endpoints_le (h : Accepts limits historyPerKey s e m s')
    (hle : s.endpointRegistrations.size ≤ limits.maxEndpoints.toNat) :
    s'.endpointRegistrations.size ≤ limits.maxEndpoints.toNat := by
  refine endpointGauge.accepts_le h hle (countP_fresh_le_one endpointGauge (fun _ _ _ => rfl)
    (fun _ _ _ => rfl) _ _) ?_
  intro u _ hfresh hroom
  obtain ⟨entry, htarget, hnew⟩ := (Option.any_eq_true _ _).mp hfresh
  cases u with
  | endpointRegistration endpoint value =>
    obtain rfl := Option.some.inj htarget
    rcases hroom with hold | hlt
    · rw [hold] at hnew
      exact absurd hnew (by simp)
    · exact hlt
  | _ => exact absurd htarget (by simp [ClaimUpdate.registeredEndpoint])

end Catalogue

/-! ### Rings -/

/-- The rings of a group. -/
def groupRings {κ ι ν : Type} [Ord κ] [TransOrd κ] [Ord ι] [TransOrd ι] (groups : Groups κ ι ν) :
    List (List Attestation) :=
  groups.toList.flatMap fun entry => entry.2.toList.map (·.2.superseded)

/-- The rings of all claim keys. -/
def RegistryState.rings (s : RegistryState) : List (List Attestation) :=
  groupRings s.objectRegistrations ++ groupRings s.endpointRegistrations ++
    groupRings s.subjectRecords ++ groupRings s.portRecords ++ groupRings s.lifecycleRecords ++
    groupRings s.reincarnationRecords ++ groupRings s.objectCapabilityRecords ++
    groupRings s.portCapabilityRecords

theorem mem_groupRings {κ ι ν : Type} [Ord κ] [TransOrd κ] [LawfulEqOrd κ] [Ord ι] [TransOrd ι]
    [LawfulEqOrd ι] {groups : Groups κ ι ν} {ring : List Attestation} :
    ring ∈ groupRings groups ↔ ∃ k i f, OrdMap.find₂ groups k i = some f ∧ f.superseded = ring := by
  unfold groupRings
  rw [List.mem_flatMap]
  constructor
  · rintro ⟨entry, hentry, hring⟩
    obtain ⟨owner, howner, rfl⟩ := List.mem_map.mp hring
    refine ⟨entry.1, owner.1, owner.2, ?_, rfl⟩
    rw [OrdMap.find₂, OrdMap.mem_toList.mp hentry]
    exact OrdMap.mem_toList.mp howner
  · rintro ⟨k, i, f, hf, rfl⟩
    unfold OrdMap.find₂ at hf
    obtain ⟨owners, howners, hi⟩ := Option.bind_eq_some_iff.mp hf
    exact ⟨(k, owners), OrdMap.mem_toList.mpr howners,
      List.mem_map.mpr ⟨(i, f), OrdMap.mem_toList.mpr hi, rfl⟩⟩

/-- No ring of a claim key is longer. -/
def RingsWithin (n : Nat) (s : RegistryState) : Prop :=
  ∀ k f, s.lookup k = some f → f.superseded.length ≤ n

theorem RingsWithin.rings {n : Nat} (h : RingsWithin n s) (hw : WellKeyed s) :
    ∀ ring ∈ s.rings, ring.length ≤ n := by
  have hlookup : ∀ {ν : Type} {k : ClaimKey} {o : Option (Folded ν)} {c : ν → ClaimValue}
      {f : Folded ν}, s.lookup k = o.map (.mapValue c) → o = some f → f.superseded.length ≤ n := by
    intro ν k o c f hk ho
    rw [ho] at hk
    exact h k _ hk
  intro ring hring
  unfold RegistryState.rings at hring
  simp only [List.mem_append, mem_groupRings] at hring
  rcases hring with ((((((⟨k, i, f, hf, rfl⟩ | ⟨k, i, f, hf, rfl⟩) | ⟨k, i, f, hf, rfl⟩) |
    ⟨k, i, f, hf, rfl⟩) | ⟨k, i, f, hf, rfl⟩) | ⟨k, i, f, hf, rfl⟩) | ⟨k, i, f, hf, rfl⟩) |
    ⟨k, i, f, hf, rfl⟩
  · exact hlookup (k := .objectRegistration k i) rfl hf
  · exact hlookup (k := .endpointRegistration k i) rfl hf
  · exact hlookup (k := .subject k i) rfl hf
  · obtain rfl := hw.port_eq k i f hf
    exact hlookup (k := .port i) rfl hf
  · exact hlookup (k := .lifecycle k i) rfl hf
  · exact hlookup (k := .reincarnation k i) rfl hf
  · exact hlookup (k := .objectCapability k i) rfl hf
  · exact hlookup (k := .portCapability k i) rfl hf

section Rings

variable {limits : Limits} {historyPerKey : UInt32} {s s' : RegistryState} {e : Evidence}
  {m : Attestation}

theorem length_settleRing_le {ν : Type} (ring : List Attestation) (r : Folded ν) :
    (r.settleRing historyPerKey ring).superseded.length ≤ historyPerKey.toNat := by
  unfold Folded.settleRing
  dsimp only
  rw [List.length_drop]
  omega

/-- Both ways a record is folded into a key keep the ring within the bound. -/
theorem length_winSlot_le {ν : Type} (v : ν) (o : Option (Folded ν)) :
    (winSlot historyPerKey m v o).superseded.length ≤ historyPerKey.toNat := by
  cases o with
  | none => exact Nat.zero_le _
  | some r => exact length_settleRing_le _ r

theorem length_lose_le {ν : Type} {r : Folded ν} (h : r.superseded.length ≤ historyPerKey.toNat) :
    (r.lose historyPerKey m).superseded.length ≤ historyPerKey.toNat := by
  unfold Folded.lose
  split
  · exact h
  split
  · exact h
  · exact length_settleRing_le _ r

theorem RingsWithin.accepts (h : RingsWithin historyPerKey.toNat s)
    (ha : Accepts limits historyPerKey s e m s') : RingsWithin historyPerKey.toNat s' := by
  intro k f hf
  rw [ha.lookup, Registry.lookup_accept] at hf
  split at hf
  · rename_i u _
    cases ho : resolvedOutcome s m u with
    | insert =>
      rw [ho] at hf
      obtain rfl := Option.some.inj hf
      exact length_winSlot_le _ _
    | superseded =>
      rw [ho] at hf
      obtain ⟨f₀, hf₀, rfl⟩ := Option.map_eq_some_iff.mp hf
      exact length_lose_le (h k f₀ hf₀)
    | duplicate | collision =>
      rw [ho] at hf
      exact h k f hf
  · exact h k f hf

theorem RingsWithin.quiet {n : Nat} (h : RingsWithin n s) (hq : Quiet limits s s') :
    RingsWithin n s' := by
  intro k f hf
  cases hq with
  | opened d i t hadm =>
    rw [Registry.openState_lookup] at hf
    exact h k f hf
  | touched key session hkey =>
    rw [lookup_sessions] at hf
    exact h k f hf
  | restarted s₀ hcore =>
    have hcore' := congrArg (fun s : RegistryState => s.lookup k) ((core_clearVolatile s₀).trans hcore)
    simp only [lookup_core, hf, Option.map_some] at hcore'
    obtain ⟨f₀, hf₀, hblur⟩ := Option.map_eq_some_iff.mp hcore'.symm
    have hlength := congrArg (fun f : Folded ClaimValue => f.superseded.length) hblur
    simp only [Folded.blur, List.length_map] at hlength
    rw [← hlength]
    exact h k f₀ hf₀

end Rings

/-! ### The catalogue -/

/-- **The catalogue and the rings are within their bounds.** -/
structure Bounded (limits : Limits) (historyPerKey : UInt32) (s : RegistryState) : Prop where
  objects : s.objectRegistrations.size ≤ limits.maxObjects.toNat
  endpoints : s.endpointRegistrations.size ≤ limits.maxEndpoints.toNat
  sources : s.sources.size ≤ limits.maxSources.toNat
  rings : RingsWithin historyPerKey.toNat s

section Bounded

variable {limits : Limits} {historyPerKey : UInt32} {s s' : RegistryState} {e : Evidence}
  {m : Attestation}

theorem Bounded.empty (limits : Limits) (historyPerKey : UInt32) (id : RegistryId)
    (openedAt : Timestamp) : Bounded limits historyPerKey { id := id, openedAt := openedAt } := by
  refine ⟨Nat.zero_le _, Nat.zero_le _, Nat.zero_le _, ?_⟩
  intro k f hf
  cases k <;> simp [RegistryState.lookup, OrdMap.find₂] at hf

/-- A new source is one more, and there was room for it. -/
theorem sources_openState_le {d : SourceDescriptor} {i : Incarnation}
    (h : s.sources.size ≤ limits.maxSources.toNat) (hadm : Registry.Admissible s limits d i)
    (t : Timestamp) : (Registry.openState s d i t).sources.size ≤ limits.maxSources.toNat := by
  rw [Registry.openState_sources, ExtTreeMap.size_insert]
  split
  · exact h
  · rename_i hnew
    refine hadm.room ?_
    rw [ExtTreeMap.contains_eq_isSome_getElem?] at hnew
    simpa using hnew

theorem Bounded.quiet (h : Bounded limits historyPerKey s) (hq : Quiet limits s s') :
    Bounded limits historyPerKey s' := by
  refine ⟨(objectGauge.quiet limits s s' hq).trans_le h.objects,
    (endpointGauge.quiet limits s s' hq).trans_le h.endpoints, ?_, h.rings.quiet hq⟩
  cases hq with
  | opened d i t hadm => exact sources_openState_le h.sources hadm t
  | touched key session hkey => exact h.sources
  | restarted s₀ hcore =>
    have hsources := sources_of_core ((core_clearVolatile s₀).trans hcore)
    rw [hsources]
    exact h.sources

theorem Bounded.accepts (h : Bounded limits historyPerKey s)
    (ha : Accepts limits historyPerKey s e m s') : Bounded limits historyPerKey s' := by
  refine ⟨objects_le ha h.objects, endpoints_le ha h.endpoints, ?_, h.rings.accepts ha⟩
  rw [ha.sources]
  exact h.sources

theorem Bounded.trace {es : List Evidence} (h : Bounded limits historyPerKey s)
    (ht : Trace limits historyPerKey s es s') : Bounded limits historyPerKey s' := by
  induction ht with
  | nil => exact h
  | quiet _ hq ih => exact ih.quiet hq
  | accepts _ ha ih => exact ih.accepts ha

end Bounded

namespace Registry

/-- **Catalogue, history and audit stay bounded.**  Along every run, reopens with the same options
included, there are never more registered objects, endpoints and sources than the limits allow, no
ring is longer than the effective history length, and the refusal audit is within its limit. -/
theorem catalogue_bounded {r : Registry} {options : RegistryOptions} {requests : List Request}
    {es : List Evidence} (h : r.ReachedBy options requests es) :
    r.state.objectRegistrations.size ≤ options.limits.maxObjects.toNat ∧
    r.state.endpointRegistrations.size ≤ options.limits.maxEndpoints.toNat ∧
    r.state.sources.size ≤ options.limits.maxSources.toNat ∧
    (∀ ring ∈ r.state.rings,
      ring.length ≤ (min options.historyPerKey options.limits.maxHistoryPerKey).toNat) ∧
    r.refusals.length ≤ options.limits.maxRefusalAudit.toNat := by
  obtain ⟨hw, -, hconfig, hoptions, id, openedAt, htrace⟩ := h.trace
  have hbounded := (Bounded.empty r.limits r.historyPerKey id openedAt).trace htrace
  have haudit := h.arises.kept.1.audit
  rw [hconfig.limits, hconfig.historyPerKey, hoptions] at hbounded
  rw [hconfig.limits, hoptions] at haudit
  exact ⟨hbounded.objects, hbounded.endpoints, hbounded.sources, hbounded.rings.rings hw, haudit⟩

/-- Room for one object and one refusal. -/
def sampleTight : RegistryOptions := { limits := { maxObjects := 1, maxRefusalAudit := 1 } }

/-- Three objects, of which one finds room. -/
def sampleCrowd : List Request :=
  [sampleOpen 1 1 5, sampleIngest 1 1 1 (sampleObject 8), sampleIngest 1 1 2 (sampleObject 9),
    sampleIngest 1 1 3 (sampleObject 10)]

theorem catalogue_bounded_sample :
    ∃ (r : Registry) (es : List Evidence), r.ReachedBy sampleTight sampleCrowd es ∧
      r.state.objectRegistrations.size = 1 ∧ r.refusals.length = 1 := by
  obtain ⟨r, es, hr, hp⟩ := exists_reached sampleTight sampleCrowd
    (fun r _ => decide (1 ≤ r.state.objectRegistrations.size) && decide (1 ≤ r.refusals.length))
    (by decide +kernel)
  rw [Bool.and_eq_true, decide_eq_true_eq, decide_eq_true_eq] at hp
  obtain ⟨hobjects, -, -, -, haudit⟩ := catalogue_bounded hr
  exact ⟨r, es, hr, Nat.le_antisymm hobjects hp.1, Nat.le_antisymm haudit hp.2⟩

end Registry

/-! ### Claims about a port -/

/-- How many claims are stored about a port. -/
def portClaims (port : PortRef) (s : RegistryState) : Nat :=
  (s.portRecords[port]?).elim 0 ExtTreeMap.size

/-- The claim is about a slot of the port for which its owner has no record there. -/
def freshSlot (port : PortRef) (s : RegistryState) : ClaimUpdate → Bool
  | .port key _ => key.port == port && (OrdMap.find₂ s.portRecords port key).isNone
  | _ => false

theorem portClaims_foldGroup_le {m : Attestation} (port : PortRef)
    (groups : Groups PortRef PortSlotKey PortValue) (key : PortSlotKey) (v : PortValue) :
    ((foldGroup historyPerKey groups key.port key m v)[port]?).elim 0 ExtTreeMap.size ≤
      (groups[port]?).elim 0 ExtTreeMap.size +
        (key.port == port && (OrdMap.find₂ groups port key).isNone).toNat := by
  unfold foldGroup
  rw [OrdMap.find_insert]
  split
  · rename_i hport
    subst hport
    have hle := size_fold_le historyPerKey m (groups.getD key.port ∅) key v
    have hnone : (OrdMap.find₂ groups key.port key).isNone =
        !(groups.getD key.port ∅).contains key := by
      rw [ExtTreeMap.getD_eq_getD_getElem?, ExtTreeMap.contains_eq_isSome_getElem?,
        Option.not_isSome]
      unfold OrdMap.find₂
      cases groups[key.port]? with
      | none => rfl
      | some slots => rfl
    have hsize : (groups.getD key.port ∅).size = (groups[key.port]?).elim 0 ExtTreeMap.size := by
      rw [ExtTreeMap.getD_eq_getD_getElem?]
      cases groups[key.port]? with
      | none => rfl
      | some slots => rfl
    rw [beq_self_eq_true, Bool.true_and, hnone, ← hsize]
    exact hle
  · exact Nat.le_add_right _ _

theorem portClaims_foldLosingGroup {m : Attestation} (port : PortRef)
    (groups : Groups PortRef PortSlotKey PortValue) (key : PortSlotKey) :
    ((foldLosingGroup historyPerKey groups key.port key m)[port]?).elim 0 ExtTreeMap.size =
      (groups[port]?).elim 0 ExtTreeMap.size := by
  unfold foldLosingGroup
  split
  · rfl
  · rename_i slots hslots
    rw [OrdMap.find_insert]
    split
    · rename_i hport
      rw [← hport, hslots]
      exact size_foldLosing _ _ _ _
    · rfl

theorem portClaims_core (port : PortRef) (s : RegistryState) :
    portClaims port s.core = portClaims port s := by
  have hfind : s.core.portRecords[port]? = (s.portRecords[port]?).map (blurOwners coreBlur) :=
    find_blurGroups coreBlur s.portRecords port
  unfold portClaims
  rw [hfind]
  cases s.portRecords[port]? with
  | none => rfl
  | some slots => exact size_blurOwners coreBlur slots

/-- The number of claims about a port. -/
def portGauge (port : PortRef) : Gauge where
  size := portClaims port
  fresh := freshSlot port
  ring := by
    intro historyPerKey m s u
    cases u with
    | port key v => exact portClaims_foldLosingGroup port s.portRecords key
    | _ => rfl
  write := by
    intro historyPerKey m s u
    cases u with
    | port key v => exact portClaims_foldGroup_le port s.portRecords key v
    | _ => exact Nat.le_add_right _ _
  fresh_ring := by
    intro historyPerKey m s u u' h
    cases u' with
    | port key' v' =>
      cases u with
      | port key v =>
        simp only [freshSlot, applyRing, find₂_foldLosingGroup, Bool.and_eq_true] at h ⊢
        refine ⟨h.1, ?_⟩
        have hnone := h.2
        split at hnone
        · rename_i hsame
          rw [← hsame.1, ← hsame.2, ← Option.isNone_map]
          exact hnone
        · exact hnone
      | _ => exact h
    | _ => exact h
  fresh_write := by
    intro historyPerKey m s u u' h
    cases u' with
    | port key' v' =>
      cases u with
      | port key v =>
        simp only [freshSlot, applyWrite, find₂_foldGroup, Bool.and_eq_true] at h ⊢
        refine ⟨h.1, ?_⟩
        have hnone := h.2
        split at hnone
        · exact absurd hnone (by simp)
        · exact hnone
      | _ => exact h
    | _ => exact h
  sessions := fun _ _ => rfl
  quiet := by
    intro limits s s' hq
    cases hq with
    | opened d i t hadm => rfl
    | touched key session hkey => rfl
    | restarted s₀ hcore =>
      have hclaims := congrArg (portClaims port) ((core_clearVolatile s₀).trans hcore)
      rw [portClaims_core, portClaims_core] at hclaims
      exact hclaims

/-! ### Moves within a port -/

/-- A move between two slots of one port, for neither of which the source has a record there,
finds room for both. -/
def moveFits (limits : Limits) (s : RegistryState) : Request → Bool
  | .ingest e _ _ =>
    match e.payload with
    | .move p =>
      !(p.fromPort == p.toPort && p.fromSlot != p.toSlot &&
        (OrdMap.find₂ s.portRecords p.toPort ⟨e.key, p.toPort, p.toSlot⟩).isNone &&
        (OrdMap.find₂ s.portRecords p.toPort ⟨e.key, p.fromPort, p.fromSlot⟩).isNone) ||
      decide (portClaims p.toPort s + 2 ≤ limits.maxClaimRecordsPerPort.toNat)
    | _ => true
  | _ => true

/-- No port has more claims than the limit. -/
def PortsBounded (limits : Limits) (s : RegistryState) : Prop :=
  ∀ port, portClaims port s ≤ limits.maxClaimRecordsPerPort.toNat

section Ports

variable {limits : Limits} {historyPerKey : UInt32} {s s' : RegistryState} {e : Evidence}
  {m : Attestation}

/-- A fresh slot that finds room is below the limit. -/
theorem portClaims_lt_of_hasRoom (hpositive : 0 < limits.maxClaimRecordsPerPort.toNat)
    {port : PortRef} {u : ClaimUpdate} (hfresh : freshSlot port s u = true)
    (hroom : HasRoom limits s u) : portClaims port s < limits.maxClaimRecordsPerPort.toNat := by
  cases u with
  | port key v =>
    simp only [freshSlot, Bool.and_eq_true, beq_iff_eq] at hfresh
    obtain ⟨rfl, hnone⟩ := hfresh
    have hcapacity : portCapacityReached limits s key = false := hroom
    unfold portCapacityReached at hcapacity
    unfold portClaims
    unfold OrdMap.find₂ at hnone
    cases hslots : s.portRecords[key.port]? with
    | none => exact hpositive
    | some slots =>
      rw [hslots] at hcapacity hnone
      simp only [Option.bind_some] at hnone
      rw [capacity_iff, ExtTreeMap.contains_eq_isSome_getElem?] at hcapacity
      rcases hcapacity with hsome | hlt
      · rw [← Option.not_isSome, hsome] at hnone
        exact absurd hnone (by simp)
      · exact hlt
  | _ => exact absurd hfresh (by simp [freshSlot])

/-- The fresh slots of a position are among its updates. -/
theorem countP_freshSlot_claims (port : PortRef) (claim : PositionClaim) :
    claim.claims.countP (freshSlot port s) =
      claim.updates.countP fun update => freshSlot port s (.port update.1 update.2) := by
  unfold PositionClaim.claims
  rw [List.countP_cons_of_neg (by simp [freshSlot]), List.countP_map]
  rfl

/-- **Two fresh slots of one port are those of a move within it.** -/
theorem two_le_countP_freshSlot {port : PortRef} {owner : SourceIncarnationKey}
    {payload : EvidencePayload} (h : 2 ≤ (claimsOf owner payload).countP (freshSlot port s)) :
    ∃ p, payload = .move p ∧ p.toPort = port ∧ p.fromPort = port ∧ p.fromSlot ≠ p.toSlot ∧
      (OrdMap.find₂ s.portRecords port ⟨owner, p.toPort, p.toSlot⟩).isNone = true ∧
      (OrdMap.find₂ s.portRecords port ⟨owner, p.fromPort, p.fromSlot⟩).isNone = true := by
  have hone : ∀ {us : List (PortSlotKey × PortValue)}, us.length ≤ 1 →
      ¬ 2 ≤ us.countP fun update => freshSlot port s (.port update.1 update.2) := by
    intro us hlen hcount
    have hle := List.countP_le_length (p := fun update : PortSlotKey × PortValue =>
      freshSlot port s (.port update.1 update.2)) (l := us)
    omega
  cases payload with
  | attach p =>
    simp only [claimsOf, countP_freshSlot_claims] at h
    exact absurd h (hone (by simp [attachClaim]))
  | detach p =>
    simp only [claimsOf, countP_freshSlot_claims] at h
    refine absurd h (hone ?_)
    unfold detachClaim
    dsimp only
    split <;> simp
  | move p =>
    simp only [claimsOf, countP_freshSlot_claims] at h
    refine ⟨p, rfl, ?_⟩
    unfold moveClaim at h
    dsimp only at h
    split at h
    · exact absurd h (hone (by simp))
    · rename_i hplace
      -- Both updates are fresh, since there are only two.
      have htwo := fun length : List.countP _ _ ≤ 2 => Nat.le_antisymm length h
      have hall := List.countP_eq_length.mp (htwo List.countP_le_length)
      have hto := hall _ List.mem_cons_self
      have hfrom := hall _ (List.mem_cons_of_mem _ List.mem_cons_self)
      simp only [freshSlot, Bool.and_eq_true, beq_iff_eq] at hto hfrom
      refine ⟨hto.1, hfrom.1, fun hslot => hplace ?_, hto.2, hfrom.2⟩
      rw [hto.1, hfrom.1, hslot]
      simp
  | _ => simp [claimsOf, freshSlot] at h

/-- A move has at most two fresh slots. -/
theorem countP_freshSlot_move_le (port : PortRef) (owner : SourceIncarnationKey) (p : MovePayload) :
    (claimsOf owner (.move p)).countP (freshSlot port s) ≤ 2 := by
  simp only [claimsOf, countP_freshSlot_claims]
  refine List.countP_le_length.trans ?_
  unfold moveClaim
  dsimp only
  split <;> simp

theorem PortsBounded.quiet (h : PortsBounded limits s) (hq : Quiet limits s s') :
    PortsBounded limits s' := by
  intro port
  have hsize : portClaims port s' = portClaims port s := (portGauge port).quiet limits s s' hq
  rw [hsize]
  exact h port

/-- **A record keeps every port within the limit**, if the request it came with does. -/
theorem PortsBounded.accepts (h : PortsBounded limits s)
    (hpositive : 0 < limits.maxClaimRecordsPerPort.toNat) {t : Timestamp} {io : Store.AppendIo}
    (hc : moveFits limits s (.ingest e t io) = true) (ha : Accepts limits historyPerKey s e m s') :
    PortsBounded limits s' := by
  intro port
  have hroom : ∀ u ∈ claimsOf e.key e.payload, (portGauge port).fresh s u = true →
      HasRoom limits s u → (portGauge port).size s < limits.maxClaimRecordsPerPort.toNat :=
    fun u _ hfresh hroom => portClaims_lt_of_hasRoom hpositive hfresh hroom
  by_cases htwo : 2 ≤ (claimsOf e.key e.payload).countP (freshSlot port s)
  · obtain ⟨p, hp, rfl, hport, hslot, hto, hfrom⟩ := two_le_countP_freshSlot htwo
    have hfits : portClaims p.toPort s + 2 ≤ limits.maxClaimRecordsPerPort.toNat := by
      have hne : (p.fromSlot != p.toSlot) = true := bne_iff_ne.mpr hslot
      simp only [moveFits, hp, hport, hne, hto, beq_self_eq_true, Bool.and_true, Bool.true_and,
        Bool.or_eq_true, Bool.not_eq_true', decide_eq_true_eq] at hc
      rw [hport] at hfrom
      rw [hfrom] at hc
      exact hc.resolve_left (by simp)
    have hsize := (portGauge p.toPort).accepts ha
    have hle : ((claimsOf e.key e.payload).countP fun u =>
        (portGauge p.toPort).fresh s u && resolvedOutcome s m u == .insert) ≤ 2 := by
      refine Nat.le_trans (List.countP_mono_left fun u _ h => (Bool.and_eq_true_iff.mp h).1) ?_
      rw [hp]
      exact countP_freshSlot_move_le p.toPort e.key p
    exact (hsize.trans (Nat.add_le_add_left hle _)).trans hfits
  · exact (portGauge port).accepts_le ha (h port) (Nat.le_of_lt_succ (Nat.lt_of_not_le htwo)) hroom

end Ports

theorem maxClaimRecordsPerPort_pos {limits : Limits} (h : limits.Valid) :
    0 < limits.maxClaimRecordsPerPort.toNat := by
  unfold Limits.Valid validateLimits requirePositive at h
  simp only [refuseIf_bind_eq_ok, beq_eq_false_iff_ne] at h
  obtain ⟨-, -, -, -, -, -, hne, -⟩ := h
  exact Nat.pos_of_ne_zero fun hzero => hne (UInt32.toNat_inj.mp hzero)

namespace Registry

/-- A registry opens under valid limits only. -/
theorem valid_of_open {options : RegistryOptions} {disk : Option (List UInt8)} {env : OpenEnv}
    {r : Registry} (h : (Registry.open options disk env).2 = .ok r) : options.limits.Valid := by
  have hcheck : checkOptions options = .ok () := by
    unfold Registry.open at h
    cases hcheck : checkOptions options with
    | error error =>
      rw [hcheck] at h
      exact absurd h (by simp)
    | ok _ => rfl
  unfold checkOptions at hcheck
  unfold Limits.Valid
  cases hlimits : validateLimits options.limits with
  | error error =>
    rw [hlimits] at hcheck
    exact absurd hcheck (by simp [bind, Except.bind])
  | ok _ => rfl

/-- **No port has more claims than the limit**, in every run in which each move between two
slots of one port finds room for what it adds. -/
theorem portClaims_bounded {options : RegistryOptions} {requests : List Request}
    {es : List Evidence} {r : Registry}
    (h : r.ReachedUnder (moveFits options.limits) options requests es) (port : PortRef) :
    portClaims port r.state ≤ options.limits.maxClaimRecordsPerPort.toNat := by
  obtain ⟨-, -, hconfig, hoptions, -⟩ := h.reachedBy.trace
  have hpositive : 0 < options.limits.maxClaimRecordsPerPort.toNat := by
    obtain ⟨-, disk, env, r₀, -, hopen, -⟩ := h
    exact maxClaimRecordsPerPort_pos (valid_of_open hopen)
  have hlimits : r.limits = options.limits := by
    rw [hconfig.limits, hoptions]
  refine h.induction (motive := fun _ s => PortsBounded options.limits s) ?_ ?_ port
  · intro id openedAt port
    exact Nat.zero_le _
  · intro es s q es' s' _ _ hc hs heffect
    rw [hlimits] at heffect
    cases heffect with
    | nothing => exact hs
    | opened d i t t' io hadm => exact hs.quiet (.opened d i t' hadm)
    | touched q key session hkey => exact hs.quiet (.touched key session hkey)
    | restarted env s₀ hcore => exact hs.quiet (.restarted s₀ hcore)
    | accepted t io ha => exact hs.accepts hpositive hc ha

/-- Room for one claim about a port. -/
def samplePort : RegistryOptions := { limits := { maxClaimRecordsPerPort := 1 } }

/-- A source moves a cable into slot 0 of a port, from slot 1 of the port with the given index. -/
def sampleMoves (index : PortIndex) : List Request :=
  [sampleOpen 1 1 5, sampleIngest 1 1 1 (.move
    { subject := ⟨.fromParts 0 8, 0⟩, objectIncarnation := 1, fromPort := ⟨.fromParts 0 7, index⟩,
      fromSlot := 1, toPort := ⟨.fromParts 0 7, 0⟩, toSlot := 0 })]

theorem portClaims_bounded_sample :
    ∃ (r : Registry) (es : List Evidence),
      r.ReachedUnder (moveFits samplePort.limits) samplePort (sampleMoves 1) es ∧
      portClaims ⟨.fromParts 0 7, 0⟩ r.state = 1 := by
  obtain ⟨r, es, hr, hp⟩ := exists_reachedUnder (moveFits samplePort.limits) samplePort (sampleMoves 1)
    (fun r => decide (1 ≤ portClaims ⟨.fromParts 0 7, 0⟩ r.state)) (by decide +kernel)
  exact ⟨r, es, hr, Nat.le_antisymm (portClaims_bounded hr _) (of_decide_eq_true hp)⟩

/-- A move from one slot of a port to another leaves two claims where one has room. -/
theorem move_within_port_overflows :
    ∃ (r : Registry) (es : List Evidence), r.ReachedBy samplePort (sampleMoves 0) es ∧
      samplePort.limits.Valid ∧ samplePort.limits.maxClaimRecordsPerPort = 1 ∧
      portClaims ⟨.fromParts 0 7, 0⟩ r.state = 2 := by
  obtain ⟨r, es, hr, hp⟩ := exists_reached samplePort (sampleMoves 0)
    (fun r _ => decide (portClaims ⟨.fromParts 0 7, 0⟩ r.state = 2)) (by decide +kernel)
  exact ⟨r, es, hr, by decide, rfl, of_decide_eq_true hp⟩

end Registry

end CableRegistry
