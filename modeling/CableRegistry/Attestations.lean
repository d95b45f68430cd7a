import CableRegistry.Events
import CableRegistry.Frames

/-!
# Where attestations come from

Every attestation a state holds, winning or superseded, was made by a record that was accepted
(`attestations_accepts`).  What it carries was true when the record came in.

* `authority_declared`: where no record of a fenced source incarnation is ingested, every
  attestation carries the authority its own incarnation declared.
-/

open Std (ExtTreeMap)

namespace CableRegistry

/-- The attestations under a key: the winning one, then the superseded ones. -/
def RegistryState.attestations (s : RegistryState) (k : ClaimKey) : List Attestation :=
  match s.lookup k with
  | none => []
  | some f => f.metadata :: f.superseded

variable {a : Attestation} {k : ClaimKey} {evs evs' : List Event} {s s' : RegistryState}

section Attestations

variable {limits : Limits} {historyPerKey : UInt32} {s s' : RegistryState} {e : Evidence}
  {m : Attestation}

theorem mem_settleRing {ν : Type} {ring : List Attestation} {f : Folded ν}
    (h : a ∈ (f.settleRing historyPerKey ring).superseded) : a ∈ ring :=
  mem_sortBy.mp (List.mem_of_mem_drop h)

theorem mem_superseded_lose {ν : Type} {f : Folded ν} {a : Attestation}
    (h : a ∈ (f.lose historyPerKey m).superseded) : a ∈ f.superseded ∨ a = m := by
  unfold Folded.lose at h
  split at h
  · exact .inl h
  split at h
  · exact .inl h
  · simpa using mem_settleRing h

theorem mem_superseded_winSlot {ν : Type} {o : Option (Folded ν)} {v : ν}
    (h : a ∈ (winSlot historyPerKey m v o).superseded) :
    ∃ f, o = some f ∧ (a ∈ f.superseded ∨ a = f.metadata) := by
  cases o with
  | none => exact absurd h (by simp [winSlot])
  | some f =>
    refine ⟨f, rfl, ?_⟩
    have hring := mem_settleRing (f := f) h
    split at hring
    · exact .inl hring
    · simpa using hring

theorem attestations_settleSlot {v : ClaimValue} {o : GenerationOutcome} {f : Folded ClaimValue}
    (hf : settleSlot historyPerKey m v o (s.lookup k) = some f)
    (ha : a ∈ f.metadata :: f.superseded) : a ∈ s.attestations k ∨ a = m := by
  unfold RegistryState.attestations
  cases o with
  | insert =>
    obtain rfl := Option.some.inj hf
    rcases List.mem_cons.mp ha with rfl | ha
    · exact .inr (metadata_winSlot _ _).1
    · obtain ⟨f₀, hf₀, ha⟩ := mem_superseded_winSlot ha
      rw [hf₀]
      exact .inl (List.mem_cons.mpr ha.symm)
  | superseded =>
    obtain ⟨f₀, hf₀, rfl⟩ := Option.map_eq_some_iff.mp hf
    rw [hf₀]
    rcases List.mem_cons.mp ha with rfl | ha
    · rw [(metadata_lose f₀).1]
      exact .inl List.mem_cons_self
    · exact (mem_superseded_lose ha).imp_left (List.mem_cons_of_mem _)
  | duplicate =>
    rw [show s.lookup k = some f from hf]
    exact .inl ha
  | collision =>
    rw [show s.lookup k = some f from hf]
    exact .inl ha

/-- **An attestation that is new is that of the record, at a key of one of its claims.** -/
theorem attestations_accepts (h : Accepts limits historyPerKey s e m s')
    (ha : a ∈ s'.attestations k) :
    a ∈ s.attestations k ∨ (a = m ∧ ∃ u ∈ claimsOf e.key e.payload, u.key e.key = k) := by
  cases hlook : s'.lookup k with
  | none =>
    unfold RegistryState.attestations at ha
    rw [hlook] at ha
    exact absurd ha (by simp)
  | some f =>
    have ha' : a ∈ f.metadata :: f.superseded := by
      unfold RegistryState.attestations at ha
      rwa [hlook] at ha
    rw [h.lookup, Registry.lookup_accept, h.owner] at hlook
    cases hfind : (claimsOf e.key e.payload).find? (·.key e.key = k) with
    | none =>
      rw [hfind] at hlook
      refine .inl ?_
      unfold RegistryState.attestations
      rw [show s.lookup k = some f from hlook]
      exact ha'
    | some u =>
      rw [hfind] at hlook
      have hkey : u.key e.key = k := by simpa using List.find?_some hfind
      exact (attestations_settleSlot hlook ha').imp_right fun heq =>
        ⟨heq, u, List.mem_of_find?_eq_some hfind, hkey⟩

/-- A new lifetime keeps the attestations and marks none of them. -/
theorem attestations_clearVolatile {s₀ : RegistryState} (h : s₀.core = s.core) {k : ClaimKey}
    {a : Attestation} (ha : a ∈ (clearVolatile s₀).attestations k) :
    a.assertedInLifetime = false ∧ ∃ a₀ ∈ s.attestations k, a₀.blur coreBlur = a.blur coreBlur := by
  have hcore : ∀ s : RegistryState, s.core.attestations k = (s.attestations k).map (·.blur coreBlur) := by
    intro s
    unfold RegistryState.attestations
    rw [lookup_core]
    cases s.lookup k <;> rfl
  have hunmarked : a.assertedInLifetime = false := by
    unfold RegistryState.attestations at ha
    rw [show clearVolatile s₀ = s₀.blur _ from rfl, lookup_blur] at ha
    cases hs : s₀.lookup k with
    | none =>
      rw [hs] at ha
      exact absurd ha (by simp)
    | some f =>
      rw [hs] at ha
      rcases List.mem_cons.mp ha with rfl | ha
      · rfl
      · obtain ⟨a₀, -, rfl⟩ := List.mem_map.mp ha
        rfl
  refine ⟨hunmarked, ?_⟩
  have hmem : a.blur coreBlur ∈ (clearVolatile s₀).core.attestations k := by
    rw [hcore]
    exact List.mem_map_of_mem ha
  rw [core_clearVolatile, h, hcore] at hmem
  exact List.mem_map.mp hmem

/-- **Where the attestations of the state after a step come from.** -/
theorem Happens.attestation {q : Request} (h : Happens limits historyPerKey s q evs s')
    (ha : a ∈ s'.attestations k) :
    (a ∈ s.attestations k ∧ evs ≠ [.restarted]) ∨
    (∃ e d, evs = [.accepted e d] ∧ d ≠ .duplicate ∧ (∃ t io, q = .ingest e t io) ∧
      Accepts limits historyPerKey s e a s' ∧ ∃ u ∈ claimsOf e.key e.payload, u.key e.key = k) ∨
    (evs = [.restarted] ∧ a.assertedInLifetime = false ∧
      ∃ a₀ ∈ s.attestations k, a₀.blur coreBlur = a.blur coreBlur) := by
  have hsame : (∀ k, s'.lookup k = s.lookup k) → a ∈ s.attestations k := by
    intro hlookup
    unfold RegistryState.attestations at ha ⊢
    rwa [hlookup] at ha
  cases h with
  | nothing => exact .inl ⟨ha, by simp⟩
  | opened d i t t' io h => exact .inl ⟨hsame (Registry.openState_lookup s d i t'), by simp⟩
  | closed key io session h => exact .inl ⟨hsame (lookup_sessions s _), by simp⟩
  | counted e t io session h => exact .inl ⟨hsame (lookup_sessions s _), by simp⟩
  | @accepted e m _ t io d h hlive hdup =>
    by_cases hd : d = .duplicate
    · exact .inl ⟨hsame (hdup hd), by simp⟩
    rcases attestations_accepts h ha with ha | ⟨rfl, hu⟩
    · exact .inl ⟨ha, by simp⟩
    · exact .inr (.inl ⟨e, d, rfl, hd, ⟨t, io, rfl⟩, h, hu⟩)
  | restarted env s₀ h => exact .inr (.inr ⟨rfl, attestations_clearVolatile h ha⟩)

end Attestations

/-! ### Authority -/

/-- The events tell of every source who declared it, and a source incarnation is declared in one
way. -/
structure Declared (evs : List Event) (s : RegistryState) : Prop where
  current : ∀ (id : SourceId) (source : SourceRecord), s.sources[id]? = some source →
    source.descriptor.id = id ∧ .opened source.descriptor source.currentIncarnation ∈ evs
  earlier : ∀ d i, .opened d i ∈ evs → ∃ source : SourceRecord, s.sources[d.id]? = some source ∧
    i ≤ source.currentIncarnation ∧ (i = source.currentIncarnation → source.descriptor = d)
  once : ∀ d d' i, .opened d i ∈ evs → .opened d' i ∈ evs → d.id = d'.id → d = d'

theorem Declared.of_sources (h : Declared evs s) (hsources : s'.sources = s.sources)
    (hnone : ∀ d i, .opened d i ∉ evs') :
    Declared (evs ++ evs') s' := by
  have hmem : ∀ d i, .opened d i ∈ evs ++ evs' ↔ .opened d i ∈ evs := by
    intro d i
    rw [List.mem_append]
    exact or_iff_left (hnone d i)
  refine ⟨?_, ?_, ?_⟩
  · intro id source hs
    rw [hmem]
    exact h.current id source (hsources ▸ hs)
  · intro d i hd
    rw [hsources]
    exact h.earlier d i ((hmem d i).mp hd)
  · intro d d' i hd hd'
    exact h.once d d' i ((hmem d i).mp hd) ((hmem d' i).mp hd')

theorem Declared.opened {limits : Limits} {evs : List Event} {s : RegistryState} (h : Declared evs s)
    (hsourced : Sourced s) {d : SourceDescriptor} {i : Incarnation}
    (hadm : Registry.Admissible s limits d i) (t : Timestamp) :
    Declared (evs ++ [.opened d i]) (Registry.openState s d i t) := by
  -- an earlier declaration of the same incarnation is of the current one, which binds the descriptor
  have hsame : ∀ d', .opened d' i ∈ evs → d'.id = d.id → d' = d := by
    intro d' hd' hid
    obtain ⟨source, hs, hle, heq⟩ := h.earlier d' i hd'
    rw [hid] at hs
    have hi : i = source.currentIncarnation := UInt64.le_antisymm hle (hadm.current source hs)
    rw [← heq hi]
    exact hadm.bound source hs hi (hsourced.described _ _ hs).1
  refine ⟨?_, ?_, ?_⟩
  · intro id source hs
    rw [hsourced.sources_openState hadm t, OrdMap.find_insert] at hs
    split at hs
    · rename_i hid
      obtain rfl := Option.some.inj hs
      exact ⟨hid, by simp⟩
    · obtain ⟨hid, hmem⟩ := h.current id source hs
      exact ⟨hid, List.mem_append_left _ hmem⟩
  · intro d' i' hd'
    rw [hsourced.sources_openState hadm t, OrdMap.find_insert]
    rcases List.mem_append.mp hd' with hbefore | hnew
    · obtain ⟨source, hs, hle, -⟩ := h.earlier d' i' hbefore
      by_cases hid : d.id = d'.id
      · have hcurrent := hadm.current source (hid ▸ hs)
        refine ⟨_, if_pos hid, UInt64.le_trans hle hcurrent, ?_⟩
        rintro rfl
        exact (hsame d' hbefore hid.symm).symm
      · rw [if_neg hid]
        exact h.earlier d' i' hbefore
    · obtain ⟨rfl, rfl⟩ : d' = d ∧ i' = i := by simpa using hnew
      exact ⟨_, if_pos rfl, UInt64.le_refl _, fun _ => rfl⟩
  · intro d₁ d₂ i' h₁ h₂ hid
    rcases List.mem_append.mp h₁ with hbefore₁ | hnew₁ <;>
      rcases List.mem_append.mp h₂ with hbefore₂ | hnew₂
    · exact h.once d₁ d₂ i' hbefore₁ hbefore₂ hid
    · obtain ⟨rfl, rfl⟩ : d₂ = d ∧ i' = i := by simpa using hnew₂
      exact hsame d₁ hbefore₁ hid
    · obtain ⟨rfl, rfl⟩ : d₁ = d ∧ i' = i := by simpa using hnew₁
      exact (hsame d₂ hbefore₂ hid.symm).symm
    · obtain ⟨rfl, -⟩ : d₁ = d ∧ i' = i := by simpa using hnew₁
      obtain ⟨rfl, -⟩ : d₂ = d₁ ∧ i' = i := by simpa using hnew₂
      rfl

theorem Declared.happens {limits : Limits} {historyPerKey : UInt32} {q : Request}
    (h : Declared evs s) (hsourced : Sourced s)
    (hhappens : Happens limits historyPerKey s q evs' s') : Declared (evs ++ evs') s' := by
  cases hhappens with
  | nothing => exact h.of_sources rfl (by simp)
  | opened d i t t' io hadm => exact h.opened hsourced hadm t'
  | closed key io session hsession => exact h.of_sources rfl (by simp)
  | counted e t io session hsession => exact h.of_sources rfl (by simp)
  | accepted t io d ha => exact h.of_sources ha.sources (by simp)
  | restarted env s₀ hcore => exact h.of_sources (sources_of_core (by rw [core_clearVolatile, hcore])) (by simp)

/-- A record that is ingested is of the current incarnation of its source. -/
def noFencedRecord (s : RegistryState) : Request → Bool
  | .ingest e _ _ => !sessionIsFenced s e.key
  | _ => true

/-- **Where no record of a fenced source incarnation is ingested, every attestation carries the
authority that its incarnation declared**, and declared every time it was opened. -/
theorem authority_declared {r : Registry} {options : RegistryOptions} {requests : List Request}
    {evs : List Event} (h : r.Chronicled noFencedRecord options requests evs) :
    ∀ k, ∀ a ∈ r.state.attestations k,
      (∃ d i, .opened d i ∈ evs ∧ ⟨d.id, i⟩ = k.owner) ∧
      ∀ d i, .opened d i ∈ evs → ⟨d.id, i⟩ = k.owner → a.authority = d.authority := by
  have hboth : Declared evs r.state ∧ ∀ k, ∀ a ∈ r.state.attestations k,
      ∃ d i, .opened d i ∈ evs ∧ ⟨d.id, i⟩ = k.owner ∧ a.authority = d.authority := by
    refine h.induction (motive := fun evs s => Declared evs s ∧ ∀ k, ∀ a ∈ s.attestations k,
      ∃ d i, .opened d i ∈ evs ∧ ⟨d.id, i⟩ = k.owner ∧ a.authority = d.authority) ?_ ?_
    · intro id openedAt
      refine ⟨⟨by simp, by simp, by simp⟩, ?_⟩
      intro k a ha
      exact absurd ha (by cases k <;> simp [RegistryState.attestations, RegistryState.lookup, OrdMap.find₂])
    rintro evs s q evs' s' hconsistent - hq ⟨hdeclared, hheld⟩ hhappens
    refine ⟨hdeclared.happens hconsistent.sourced hhappens, ?_⟩
    have hold : ∀ k, ∀ a ∈ s.attestations k,
        ∃ d i, .opened d i ∈ evs ++ evs' ∧ ⟨d.id, i⟩ = k.owner ∧ a.authority = d.authority := by
      intro k a ha
      obtain ⟨d, i, hmem, hrest⟩ := hheld k a ha
      exact ⟨d, i, List.mem_append_left _ hmem, hrest⟩
    intro k a ha
    rcases hhappens.attestation ha with ⟨ha, -⟩ | ⟨e, d, rfl, -, ⟨t, io, rfl⟩, hacc, u, hu, rfl⟩ |
      ⟨-, -, a₀, ha₀, hblur⟩
    · exact hold k a ha
    · obtain ⟨source, received, hsource, -, rfl⟩ := hacc.source
      obtain ⟨source', hsource', hle⟩ := hconsistent.sourced.known e.key hacc.session
      obtain rfl : source = source' := Option.some.inj (hsource.symm.trans hsource')
      have hcurrent : source.currentIncarnation ≤ e.key.incarnation := by
        simp only [noFencedRecord, sessionIsFenced, hsource', Bool.not_eq_true',
          decide_eq_false_iff_not] at hq
        exact UInt64.not_lt.mp hq
      obtain ⟨hid, hmem⟩ := hdeclared.current _ _ hsource
      refine ⟨source.descriptor, source.currentIncarnation, List.mem_append_left _ hmem, ?_, rfl⟩
      rw [owner_key_of_mem_claimsOf hu, hid, UInt64.le_antisymm hcurrent hle]
      rfl
    · obtain ⟨d, i, hmem, howner, hauthority⟩ := hold k a₀ ha₀
      exact ⟨d, i, hmem, howner, (congrArg Attestation.authority hblur).symm.trans hauthority⟩
  intro k a ha
  obtain ⟨d, i, hmem, howner, hauthority⟩ := hboth.2 k a ha
  refine ⟨⟨d, i, hmem, howner⟩, ?_⟩
  intro d' i' hmem' howner'
  obtain ⟨hid, hi⟩ : d'.id = d.id ∧ i' = i := by
    simpa using howner'.trans howner.symm
  rw [hauthority, hboth.1.once d' d i (hi ▸ hmem') hmem hid]

/-- A source declares rank 5, then rank 9 in a second incarnation, and an object is registered by
the given one. -/
def sampleRaised (incarnation : Incarnation) : List Request :=
  [Registry.sampleOpen 1 1 5, Registry.sampleOpen 1 2 9,
    Registry.sampleIngest 1 incarnation 1 (Registry.sampleObject 9)]

/-- The key under which that object is registered. -/
def sampleRaisedKey (incarnation : Incarnation) : ClaimKey :=
  .objectRegistration (.fromParts 0 9) ⟨.fromParts 0 1, incarnation⟩

theorem authority_declared_raised :
    ∃ (r : Registry) (evs : List Event) (a : Attestation),
      r.Chronicled noFencedRecord {} (sampleRaised 2) evs ∧
      a ∈ r.state.attestations (sampleRaisedKey 2) ∧
      ∃ d i, .opened d i ∈ evs ∧ ⟨d.id, i⟩ = (sampleRaisedKey 2).owner := by
  obtain ⟨r, evs, hr, hp⟩ := Registry.exists_chronicled noFencedRecord {} (sampleRaised 2)
    (fun r _ => !(r.state.attestations (sampleRaisedKey 2)).isEmpty) (by decide +kernel)
  obtain ⟨a, ha⟩ : ∃ a, a ∈ r.state.attestations (sampleRaisedKey 2) := by
    refine List.exists_mem_of_ne_nil _ fun hnil => ?_
    rw [hnil] at hp
    exact absurd hp (by simp)
  exact ⟨r, evs, a, hr, ha, (authority_declared hr _ a ha).1⟩

/-- A record of the first incarnation comes in after the second has declared a higher rank, and
gets that rank. -/
theorem late_record_raised :
    ∃ (r : Registry) (evs : List Event) (d : SourceDescriptor) (a : Attestation),
      r.Chronicled (fun _ _ => true) {} (sampleRaised 1) evs ∧ .opened d 1 ∈ evs ∧
      ⟨d.id, 1⟩ = (sampleRaisedKey 1).owner ∧ a ∈ r.state.attestations (sampleRaisedKey 1) ∧
      d.authority.rank = 5 ∧ a.authority.rank = 9 := by
  obtain ⟨r, evs, hr, hp⟩ := Registry.exists_chronicled (fun _ _ => true) {} (sampleRaised 1)
    (fun r evs =>
      evs.contains (.opened { id := .fromParts 0 1, authority := { rank := 5 } } 1) &&
      (r.state.attestations (sampleRaisedKey 1)).any (·.authority.rank == 9)) (by decide +kernel)
  rw [Bool.and_eq_true, List.contains_iff_mem, List.any_eq_true] at hp
  obtain ⟨hmem, a, ha, hrank⟩ := hp
  exact ⟨r, evs, _, a, hr, hmem, rfl, ha, rfl, beq_iff_eq.mp hrank⟩

end CableRegistry
