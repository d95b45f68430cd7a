import CableRegistry.Reachable

/-!
# What holds in every reachable state

Five invariants of a trace from the empty state, each proved from what a step does to the
winners:

* `Sourced`: every source is described by its current incarnation, which has a session.
* `Owned`: a winner belongs to a session, and one that is not fenced carries the authority
  its source has now.
* `Placed`: where a slot says which side sits in it, its source has a word on the side that
  is at least as new, and one just as new says the same; and the other way round.
* `Paired`: where the slot and the side hold one and the same record, they hold it with the
  same attestation.
* `Grounded`: every winner is a claim of an accepted record, and no accepted record is newer
  than the winner of a key it makes a claim about.

`Consistent` is the five together, and `Trace.consistent` that they hold.
-/

open Std

namespace CableRegistry

/-! ### Sources and sessions -/

/-- Every source is described by its current incarnation, and sessions belong to sources. -/
structure Sourced (s : RegistryState) : Prop where
  described : ∀ (id : SourceId) (source : SourceRecord), s.sources[id]? = some source →
    source.described = true ∧ source.descriptorIncarnation = source.currentIncarnation
  current : ∀ (id : SourceId) (source : SourceRecord), s.sources[id]? = some source →
    s.sessions.contains ⟨id, source.currentIncarnation⟩ = true
  known : ∀ key, s.sessions.contains key = true → ∃ source : SourceRecord,
    s.sources[key.source]? = some source ∧ key.incarnation ≤ source.currentIncarnation

variable {w : Attestation × ClaimValue} {k : ClaimKey} {u : ClaimUpdate} {v : ClaimValue}
  {payload : EvidencePayload} {i : Incarnation} {limits : Limits} {es : List Evidence}
  {requests : List Request} {subject : ObjectSideRef} {key : PortSlotKey} {s s' : RegistryState}
  {c : RegistryState → Request → Bool} {d : SourceDescriptor} {owner : SourceIncarnationKey}
  {historyPerKey : UInt32}

theorem contains_insert_of_contains {key : SourceIncarnationKey}
    (h : s.sessions.contains key = true) (session : SessionRecord) (key' : SourceIncarnationKey) :
    (s.sessions.insert key session).contains key' = s.sessions.contains key' := by
  rw [ExtTreeMap.contains_insert]
  by_cases hk : key = key'
  · subst hk
    rw [h, Bool.or_true]
  · simp [hk]

theorem contains_of_core (h : s'.core = s.core) (key : SourceIncarnationKey) :
    s'.sessions.contains key = s.sessions.contains key := by
  rw [← Registry.contains_core_sessions, h, Registry.contains_core_sessions]

theorem sources_of_core (h : s'.core = s.core) : s'.sources = s.sources := by
  have hsources := congrArg RegistryState.sources h
  exact hsources

/-- Sources and session keys as they were. -/
theorem Sourced.of_same (h : Sourced s) (hsources : s'.sources = s.sources)
    (hsessions : ∀ key, s'.sessions.contains key = s.sessions.contains key) : Sourced s' := by
  refine ⟨?_, ?_, ?_⟩
  · rw [hsources]
    exact h.described
  · intro id source
    rw [hsources, hsessions]
    exact h.current id source
  · intro key
    rw [hsources, hsessions]
    exact h.known key

/-- A session that is admitted leaves its source described by it. -/
theorem Sourced.registerSource (h : Sourced s) (hadm : Registry.Admissible s limits d i) :
    Registry.registerSource (s.sources.getD d.id {}) d i = ⟨d, i, i, true⟩ := by
  rw [ExtTreeMap.getD_eq_getD_getElem?]
  cases hsource : s.sources[d.id]? with
  | none =>
    have hpos : (0 : UInt64) < i := UInt64.pos_iff_ne_zero.mpr hadm.positive
    simp [Registry.registerSource, hpos]
  | some source =>
    obtain ⟨hdescribed, hcurrent⟩ := h.described d.id source hsource
    have hle := hadm.current source hsource
    have hbound := hadm.bound source hsource
    obtain ⟨descriptor, descriptorIncarnation, currentIncarnation, described⟩ := source
    simp only at hdescribed hcurrent hle hbound
    subst hdescribed hcurrent
    simp only [Option.getD_some, Registry.registerSource, Bool.not_true, Bool.false_or,
      decide_eq_true_eq]
    by_cases hlt : descriptorIncarnation < i
    · simp [hlt]
    · have heq : i = descriptorIncarnation := UInt64.le_antisymm (UInt64.not_lt.mp hlt) hle
      subst heq
      simp [hbound rfl rfl]

theorem Sourced.sources_openState (h : Sourced s) (hadm : Registry.Admissible s limits d i)
    (t : Timestamp) :
    (Registry.openState s d i t).sources = s.sources.insert d.id ⟨d, i, i, true⟩ := by
  rw [Registry.openState_sources, h.registerSource hadm]

theorem Sourced.openState {s : RegistryState} {limits : Limits} (h : Sourced s)
    {d : SourceDescriptor} {i : Incarnation} (hadm : Registry.Admissible s limits d i)
    (t : Timestamp) : Sourced (Registry.openState s d i t) := by
  have hsources := h.sources_openState hadm t
  obtain ⟨session, hsessions⟩ := Registry.openState_sessions s d i t
  refine ⟨?_, ?_, ?_⟩
  · intro id source hs
    rw [hsources, OrdMap.find_insert] at hs
    split at hs
    · obtain rfl := Option.some.inj hs
      exact ⟨rfl, rfl⟩
    · exact h.described id source hs
  · intro id source hs
    rw [hsources, OrdMap.find_insert] at hs
    rw [hsessions, ExtTreeMap.contains_insert]
    split at hs
    · rename_i hid
      obtain rfl := Option.some.inj hs
      simp [hid]
    · rw [h.current id source hs, Bool.or_true]
  · intro key hkey
    rw [hsessions, ExtTreeMap.contains_insert, Bool.or_eq_true] at hkey
    rw [hsources, OrdMap.find_insert]
    rcases hkey with hkey | hkey
    · have heq : (⟨d.id, i⟩ : SourceIncarnationKey) = key := by simpa using hkey
      subst heq
      exact ⟨_, if_pos rfl, UInt64.le_refl i⟩
    · obtain ⟨source, hs, hle⟩ := h.known key hkey
      by_cases hid : d.id = key.source
      · refine ⟨_, if_pos hid, ?_⟩
        exact UInt64.le_trans hle (hadm.current source (by rw [hid]; exact hs))
      · exact ⟨source, by rw [if_neg hid]; exact hs, hle⟩

section Steps

variable {limits : Limits} {historyPerKey : UInt32} {s s' : RegistryState} {e : Evidence}
  {m : Attestation}

theorem Accepts.sources (h : Accepts limits historyPerKey s e m s') : s'.sources = s.sources := by
  obtain ⟨session, rfl⟩ := h.state
  exact (applyChange_frame historyPerKey s _).sources

theorem Accepts.contains (h : Accepts limits historyPerKey s e m s') (key : SourceIncarnationKey) :
    s'.sessions.contains key = s.sessions.contains key := by
  obtain ⟨session, rfl⟩ := h.state
  exact contains_insert_of_contains h.session session key

theorem Sourced.quiet (h : Sourced s) (hq : Quiet limits s s') : Sourced s' := by
  cases hq with
  | opened d i t hadm => exact h.openState hadm t
  | touched key session hkey => exact h.of_same rfl (contains_insert_of_contains hkey session)
  | restarted s₀ hcore =>
    have hcore' : (clearVolatile s₀).core = s.core := by rw [core_clearVolatile, hcore]
    exact h.of_same (sources_of_core hcore') (contains_of_core hcore')

theorem Sourced.accepts (h : Sourced s) (ha : Accepts limits historyPerKey s e m s') : Sourced s' :=
  h.of_same ha.sources ha.contains

theorem Sourced.empty (id : RegistryId) (openedAt : Timestamp) :
    Sourced { id := id, openedAt := openedAt } := by
  refine ⟨?_, ?_, ?_⟩
  · intro id source h
    simp at h
  · intro id source h
    simp at h
  · intro key h
    simp at h

end Steps

/-! ### What a step does to winners -/

section Winners

variable {limits : Limits} {historyPerKey : UInt32} {s s' : RegistryState} {e : Evidence}
  {m : Attestation}

theorem winner_empty (id : RegistryId) (openedAt : Timestamp) (k : ClaimKey) :
    RegistryState.winner { id := id, openedAt := openedAt } k = none := by
  cases k <;> simp [RegistryState.winner, RegistryState.lookup, OrdMap.find₂]

theorem compareGeneration_cases (stored incoming : Attestation) (same : Bool) :
    (compareGeneration stored incoming same = .insert ∧ stored.generation < incoming.generation) ∨
    (compareGeneration stored incoming same = .superseded ∧
      incoming.generation < stored.generation) ∨
    (stored.generation = incoming.generation ∧
      compareGeneration stored incoming same = if same then .duplicate else .collision) := by
  unfold compareGeneration
  by_cases h₁ : incoming.generation > stored.generation
  · exact .inl ⟨if_pos h₁, h₁⟩
  by_cases h₂ : incoming.generation < stored.generation
  · exact .inr (.inl ⟨by rw [if_neg h₁, if_pos h₂], h₂⟩)
  · refine .inr (.inr ⟨UInt64.le_antisymm (UInt64.not_lt.mp h₂) (UInt64.not_lt.mp h₁), ?_⟩)
    rw [if_neg h₁, if_neg h₂]

/-- Two claims of a record about one key are the same claim. -/
theorem eq_of_key_eq {u' : ClaimUpdate} (hu : u ∈ claimsOf e.key e.payload)
    (hu' : u' ∈ claimsOf e.key e.payload) (h : u'.key e.key = u.key e.key) : u' = u :=
  List.inj_on_of_nodup_map (nodup_keys_claimsOf e.key e.payload) hu' hu h

/-- A record that is written is newer than the winner it replaces. -/
theorem lt_of_insert (h : Accepts limits historyPerKey s e m s') {m₀ : Attestation}
    {v₀ : ClaimValue} (ho : resolvedOutcome s m u = .insert)
    (hw : s.winner (u.key e.key) = some (m₀, v₀)) : m₀.generation < m.generation := by
  have hclaim : claimOutcome s m u = .insert := by
    unfold resolvedOutcome at ho
    split at ho
    · exact absurd ho (by simp)
    · exact ho
  rw [claimOutcome_winner h.owner, hw] at hclaim
  rcases compareGeneration_cases m₀ m (u.sameContent v₀) with ⟨-, hlt⟩ | ⟨ho', -⟩ | ⟨-, ho'⟩
  · exact hlt
  · exact absurd (ho'.symm.trans hclaim) (by simp)
  · rw [show compareGeneration m₀ m (u.sameContent v₀) = .insert from hclaim] at ho'
    split at ho' <;> exact absurd ho' (by simp)

/-- A winner stays or gives way to a newer one. -/
theorem winner_mono (h : Accepts limits historyPerKey s e m s') {m₀ : Attestation} {v₀ : ClaimValue}
    (hw : s.winner k = some (m₀, v₀)) :
    s'.winner k = some (m₀, v₀) ∨
      ∃ u ∈ claimsOf e.key e.payload, u.key e.key = k ∧ m₀.generation < m.generation ∧
        s'.winner k = some (m.blur coreBlur, u.value) := by
  rcases winner_cases h k with heq | ⟨u, hu, rfl, ho, heq⟩
  · exact .inl (heq.trans hw)
  · exact .inr ⟨u, hu, rfl, lt_of_insert h ho hw, heq⟩

/-- **After an accepted record, a key it makes a claim about has a winner that is at least
as new**, and one that is just as new says the same. -/
theorem winner_claimed (h : Accepts limits historyPerKey s e m s')
    (hkind : e.payload.isReincarnation = false) (hu : u ∈ claimsOf e.key e.payload) :
    ∃ m' v', s'.winner (u.key e.key) = some (m', v') ∧ m.generation ≤ m'.generation ∧
      (m'.generation = m.generation → v' = u.value ∨ u.sameContent v' = true) := by
  have hout : resolvedOutcome s m u = claimOutcome s m u :=
    resolvedOutcome_of_not_reached (targetReached_of_mem hkind hu)
  have hstay : resolvedOutcome s m u ≠ .insert → s'.winner (u.key e.key) = s.winner (u.key e.key) := by
    intro hne
    refine winner_of_not_insert h ?_
    intro u' hu' hk
    rw [eq_of_key_eq hu hu' hk]
    exact hne
  have hcol := h.resolved u hu
  cases hw : s.winner (u.key e.key) with
  | none =>
    have hins : resolvedOutcome s m u = .insert := by
      rw [hout, claimOutcome_winner h.owner, hw]
    exact ⟨_, _, winner_of_insert h hu hins, UInt64.le_refl _, fun _ => .inl rfl⟩
  | some w =>
    have hcmp : resolvedOutcome s m u = compareGeneration w.1 m (u.sameContent w.2) := by
      rw [hout, claimOutcome_winner h.owner, hw]
    rcases compareGeneration_cases w.1 m (u.sameContent w.2) with ⟨ho, -⟩ | ⟨ho, hlt⟩ | ⟨hgen, ho⟩
    · exact ⟨_, _, winner_of_insert h hu (hcmp.trans ho), UInt64.le_refl _, fun _ => .inl rfl⟩
    · refine ⟨w.1, w.2, ?_, UInt64.le_of_lt hlt, ?_⟩
      · rw [hstay (by rw [hcmp, ho]; simp), hw]
      · intro heq
        rw [heq] at hlt
        exact absurd hlt (UInt64.lt_irrefl _)
    · cases hsame : u.sameContent w.2 with
      | false =>
        rw [hcmp, ho, hsame] at hcol
        exact absurd rfl hcol
      | true =>
        refine ⟨w.1, w.2, ?_, hgen ▸ UInt64.le_refl _, fun _ => .inr hsame⟩
        rw [hsame] at ho
        rw [hstay (by rw [hcmp, hsame, ho]; simp), hw]

end Winners

/-! ### Accepted records -/

/-- Every winner is a claim of an accepted record of its owner, and an accepted record is
not newer than the winner of a key it makes a claim about; one that is just as new says the
same. -/
structure Grounded (limits : Limits) (es : List Evidence) (s : RegistryState) : Prop where
  valid : ∀ e ∈ es, validateEvidenceShape e limits = .ok ()
  source : ∀ k m v, s.winner k = some (m, v) → ∃ e ∈ es, ∃ u ∈ claimsOf e.key e.payload,
    u.key e.key = k ∧ u.value = v ∧
      ∃ authority t, m = (attestationOf e authority t true).blur coreBlur
  newest : ∀ e ∈ es, e.payload.isReincarnation = false → ∀ u ∈ claimsOf e.key e.payload,
    ∃ m v, s.winner (u.key e.key) = some (m, v) ∧ e.header.generation ≤ m.generation ∧
      (m.generation = e.header.generation → v = u.value ∨ u.sameContent v = true)

section Grounded

variable {limits : Limits} {historyPerKey : UInt32} {s s' : RegistryState} {e : Evidence}
  {m : Attestation} {es : List Evidence}

theorem Grounded.empty (limits : Limits) (id : RegistryId) (openedAt : Timestamp) :
    Grounded limits [] { id := id, openedAt := openedAt } := by
  refine ⟨by simp, ?_, by simp⟩
  intro k m v h
  rw [winner_empty] at h
  exact absurd h (by simp)

theorem Grounded.quiet (h : Grounded limits es s) (hq : Quiet limits s s') :
    Grounded limits es s' := by
  have hw := winner_quiet hq
  refine ⟨h.valid, ?_, ?_⟩
  · rw [hw]
    exact h.source
  · rw [hw]
    exact h.newest

theorem Grounded.accepts (h : Grounded limits es s) (ha : Accepts limits historyPerKey s e m s') :
    Grounded limits (es ++ [e]) s' := by
  have hgen := ha.generation
  refine ⟨?_, ?_, ?_⟩
  · intro e' he'
    rcases List.mem_append.mp he' with he' | he'
    · exact h.valid e' he'
    · rw [List.mem_singleton.mp he']
      exact ha.shape
  · intro k m' v hwin
    rcases winner_cases ha k with heq | ⟨u, hu, hk, -, heq⟩
    · rw [heq] at hwin
      obtain ⟨e', he', hrest⟩ := h.source k m' v hwin
      exact ⟨e', List.mem_append_left _ he', hrest⟩
    · rw [hwin] at heq
      obtain ⟨rfl, rfl⟩ := Prod.mk.inj (Option.some.inj heq)
      obtain ⟨source, t, -, -, rfl⟩ := ha.source
      exact ⟨e, List.mem_append_right _ (List.mem_singleton_self e), u, hu, hk, rfl, _, t, rfl⟩
  · intro e' he' hkind u hu
    rcases List.mem_append.mp he' with he' | he'
    · obtain ⟨m₀, v₀, hw, hle, hsays⟩ := h.newest e' he' hkind u hu
      rcases winner_mono ha hw with hsame | ⟨u', -, -, hlt, hnew⟩
      · exact ⟨m₀, v₀, hsame, hle, hsays⟩
      · have hnewer := UInt64.lt_of_le_of_lt hle hlt
        refine ⟨_, _, hnew, UInt64.le_of_lt hnewer, fun heq => ?_⟩
        rw [← heq] at hnewer
        exact absurd hnewer (UInt64.lt_irrefl _)
    · obtain rfl := List.mem_singleton.mp he'
      rw [← hgen]
      exact winner_claimed ha hkind hu

/-- A winner is owned by the owner of its key. -/
theorem Grounded.owner_eq (h : Grounded limits es s) (hw : s.winner k = some (m, v)) :
    m.owner = k.owner := by
  obtain ⟨e, -, u, hu, rfl, -, authority, t, rfl⟩ := h.source k m v hw
  exact (owner_key_of_mem_claimsOf hu).symm

end Grounded

/-! ### Owners -/

/-- A winner belongs to a session, and one that is not fenced has its source's authority. -/
structure Owned (s : RegistryState) : Prop where
  session : ∀ k w, s.winner k = some w → s.sessions.contains k.owner = true
  authority : ∀ k m v, s.winner k = some (m, v) → sessionIsFenced s k.owner = false →
    ∀ source : SourceRecord, s.sources[k.owner.source]? = some source →
      m.authority = source.descriptor.authority

section Owned

variable {limits : Limits} {historyPerKey : UInt32} {s s' : RegistryState} {e : Evidence}
  {m : Attestation}

theorem Owned.empty (id : RegistryId) (openedAt : Timestamp) :
    Owned { id := id, openedAt := openedAt } := by
  refine ⟨?_, ?_⟩
  · intro k w h
    rw [winner_empty] at h
    exact absurd h (by simp)
  · intro k m v h
    rw [winner_empty] at h
    exact absurd h (by simp)

theorem sessionIsFenced_congr (h : s'.sources = s.sources) (key : SourceIncarnationKey) :
    sessionIsFenced s' key = sessionIsFenced s key := by
  unfold sessionIsFenced
  rw [h]

/-- Winners, sources and session keys as they were. -/
theorem Owned.of_same (h : Owned s) (hw : s'.winner = s.winner) (hsources : s'.sources = s.sources)
    (hsessions : ∀ key, s'.sessions.contains key = s.sessions.contains key) : Owned s' := by
  refine ⟨?_, ?_⟩
  · intro k w
    rw [hw, hsessions]
    exact h.session k w
  · intro k m v
    rw [hw, hsources, sessionIsFenced_congr hsources]
    exact h.authority k m v

theorem sessionIsFenced_eq {source : SourceRecord} {key : SourceIncarnationKey}
    (h : s.sources[key.source]? = some source) :
    sessionIsFenced s key = decide (key.incarnation < source.currentIncarnation) := by
  unfold sessionIsFenced
  rw [h]

theorem Owned.openState (h : Owned s) (hs : Sourced s) (hadm : Registry.Admissible s limits d i)
    (t : Timestamp) :
    Owned (Registry.openState s d i t) := by
  have hw : (Registry.openState s d i t).winner = s.winner := winner_quiet (.opened d i t hadm)
  have hsources := hs.sources_openState hadm t
  obtain ⟨session, hsessions⟩ := Registry.openState_sessions s d i t
  refine ⟨?_, ?_⟩
  · intro k w hk
    rw [hw] at hk
    rw [hsessions, ExtTreeMap.contains_insert, h.session k w hk, Bool.or_true]
  · intro k m v hk hfenced source hsource
    rw [hw] at hk
    rw [sessionIsFenced_eq hsource] at hfenced
    rw [hsources, OrdMap.find_insert] at hsource
    obtain ⟨old, hold, hle⟩ := hs.known k.owner (h.session k _ hk)
    have hauthority := h.authority k m v hk
    split at hsource
    · -- The session of the source itself: it is the owner's own or it fences the owner.
      rename_i hid
      obtain rfl := Option.some.inj hsource
      rw [← hid] at hold
      have hcur := hadm.current old hold
      have hge : i ≤ k.owner.incarnation := UInt64.not_lt.mp (by simpa using hfenced)
      have heq : i = old.currentIncarnation :=
        UInt64.le_antisymm (UInt64.le_trans hge hle) hcur
      rw [← hadm.bound old hold heq (hs.described d.id old hold).1]
      refine hauthority ?_ old (by rw [← hid]; exact hold)
      rw [sessionIsFenced_eq (by rw [← hid]; exact hold), ← heq]
      simpa using hge
    · refine hauthority ?_ source hsource
      rw [sessionIsFenced_eq hsource]
      exact hfenced

theorem Owned.quiet (h : Owned s) (hs : Sourced s) (hq : Quiet limits s s') : Owned s' := by
  have hw := winner_quiet hq
  cases hq with
  | opened d i t hadm => exact h.openState hs hadm t
  | touched key session hkey => exact h.of_same hw rfl (contains_insert_of_contains hkey session)
  | restarted s₀ hcore =>
    have hcore' : (clearVolatile s₀).core = s.core := by rw [core_clearVolatile, hcore]
    exact h.of_same hw (sources_of_core hcore') (contains_of_core hcore')

theorem Owned.accepts (h : Owned s) (ha : Accepts limits historyPerKey s e m s') : Owned s' := by
  refine ⟨?_, ?_⟩
  · intro k w hk
    rw [ha.contains]
    rcases winner_cases ha k with heq | ⟨u, hu, rfl, -, -⟩
    · exact h.session k w (heq ▸ hk)
    · rw [owner_key_of_mem_claimsOf hu]
      exact ha.session
  · intro k m' v hk hfenced source hsource
    rw [sessionIsFenced_congr ha.sources] at hfenced
    rw [ha.sources] at hsource
    rcases winner_cases ha k with heq | ⟨u, hu, rfl, -, heq⟩
    · exact h.authority k m' v (heq ▸ hk) hfenced source hsource
    · rw [hk] at heq
      obtain ⟨rfl, -⟩ := Prod.mk.inj (Option.some.inj heq)
      rw [owner_key_of_mem_claimsOf hu] at hsource
      obtain ⟨source', t, hsource', -, rfl⟩ := ha.source
      obtain rfl : source' = source := Option.some.inj (hsource'.symm.trans hsource)
      rfl

end Owned

/-! ### Positions -/

/-- A claim that a slot is occupied comes with the claim about the side in it. -/
theorem subject_mem_of_port_mem {v : PortValue} (h : .port key v ∈ claimsOf owner payload)
    (hv : v.empty = false) :
    key.owner = owner ∧ ∃ v', .subject v.subject v' ∈ claimsOf owner payload ∧ v'.attached = true ∧
      v'.port = key.port ∧ v'.slot = key.slot ∧ v'.objectIncarnation = v.objectIncarnation := by
  cases payload with
  | attach p =>
    have hmem := List.mem_singleton.mp (port_mem_claims.mp h)
    obtain ⟨rfl, rfl⟩ := Prod.mk.inj hmem
    exact ⟨rfl, _, List.mem_cons_self, rfl, rfl, rfl, rfl⟩
  | detach p =>
    have hmem := port_mem_claims.mp h
    unfold detachClaim at hmem
    dsimp only at hmem
    split at hmem
    · obtain ⟨rfl, rfl⟩ := Prod.mk.inj (List.mem_singleton.mp hmem)
      exact absurd hv (by simp)
    · exact absurd hmem (by simp)
  | move p =>
    have hmem := port_mem_claims.mp h
    simp only [claimsOf, moveClaim] at hmem ⊢
    split at hmem
    · rename_i hsame
      obtain ⟨rfl, rfl⟩ := Prod.mk.inj (List.mem_singleton.mp hmem)
      rw [if_pos hsame]
      exact ⟨rfl, _, List.mem_cons_self, rfl, rfl, rfl, rfl⟩
    · rename_i hsame
      rw [if_neg hsame]
      rcases List.mem_cons.mp hmem with heq | hmem
      · obtain ⟨rfl, rfl⟩ := Prod.mk.inj heq
        exact ⟨rfl, _, List.mem_cons_self, rfl, rfl, rfl, rfl⟩
      · obtain ⟨rfl, rfl⟩ := Prod.mk.inj (List.mem_singleton.mp hmem)
        exact absurd hv (by simp)
  | _ => simp [claimsOf] at h

/-- A claim that a side is attached comes with the claim about the slot it sits in. -/
theorem port_mem_of_subject_mem {owner : SourceIncarnationKey} {payload : EvidencePayload}
    {subject : ObjectSideRef} {v : SubjectValue} (h : .subject subject v ∈ claimsOf owner payload)
    (hv : v.attached = true) :
    .port ⟨owner, v.port, v.slot⟩ ⟨v.objectIncarnation, false, subject⟩ ∈ claimsOf owner payload := by
  cases payload with
  | attach p =>
    obtain ⟨rfl, rfl⟩ := subject_mem_claims.mp h
    exact port_mem_claims.mpr List.mem_cons_self
  | detach p =>
    obtain ⟨rfl, rfl⟩ := subject_mem_claims.mp h
    simp [detachClaim, PositionClaim.subjectValue] at hv
  | move p =>
    obtain ⟨rfl, rfl⟩ := subject_mem_claims.mp h
    refine port_mem_claims.mpr ?_
    simp only [moveClaim, PositionClaim.subjectValue]
    split <;> exact List.mem_cons_self
  | _ => simp [claimsOf] at h

/-- The winner of a side's key is a position of the side. -/
theorem winner_subject (h : s.winner (.subject subject owner) = some w) :
    ∃ v, w.2 = .subject v := by
  obtain ⟨f, hf, rfl⟩ := Option.map_eq_some_iff.mp h
  obtain ⟨f₀, -, rfl⟩ := Option.map_eq_some_iff.mp hf
  exact ⟨f₀.value, rfl⟩

/-- The winner of a slot's key is an occupation of the slot. -/
theorem winner_port (h : s.winner (.port key) = some w) : ∃ v, w.2 = .port v := by
  obtain ⟨f, hf, rfl⟩ := Option.map_eq_some_iff.mp h
  obtain ⟨f₀, -, rfl⟩ := Option.map_eq_some_iff.mp hf
  exact ⟨f₀.value, rfl⟩

theorem eq_port_of_key (h : u.key owner = .port key) : ∃ v, u = .port key v := by
  cases u <;> simp [ClaimUpdate.key] at h
  subst h
  exact ⟨_, rfl⟩

theorem eq_subject_of_key {owner' : SourceIncarnationKey}
    (h : u.key owner = .subject subject owner') :
    owner = owner' ∧ ∃ v, u = .subject subject v := by
  cases u <;> simp [ClaimUpdate.key] at h
  obtain ⟨rfl, rfl⟩ := h
  exact ⟨rfl, _, rfl⟩

/-- Only a reincarnation makes a claim about one. -/
theorem of_reincarnation_mem {object : ObjectId} {v : ReincarnationValue}
    (h : .reincarnation object v ∈ claimsOf owner payload) :
    ∃ p, payload = .reincarnateObject p ∧ object = p.object ∧ v = reincarnationValue p := by
  cases payload with
  | reincarnateObject p =>
    obtain ⟨rfl, rfl⟩ := ClaimUpdate.reincarnation.inj (List.mem_singleton.mp h)
    exact ⟨p, rfl, rfl, rfl⟩
  | attach p | detach p | move p => simp [claimsOf, PositionClaim.claims] at h
  | _ => simp [claimsOf] at h

/-- A slot and the side in it agree, as far as one source goes. -/
structure Placed (s : RegistryState) : Prop where
  occupied : ∀ key m v, s.winner (.port key) = some (m, .port v) → v.empty = false →
    ∃ m' v', s.winner (.subject v.subject key.owner) = some (m', .subject v') ∧
      m.generation ≤ m'.generation ∧ (m'.generation = m.generation → v'.attached = true ∧
        v'.port = key.port ∧ v'.slot = key.slot ∧ v'.objectIncarnation = v.objectIncarnation)
  attached : ∀ subject owner m v, s.winner (.subject subject owner) = some (m, .subject v) →
    v.attached = true →
    ∃ m' v', s.winner (.port ⟨owner, v.port, v.slot⟩) = some (m', .port v') ∧
      m.generation ≤ m'.generation ∧ (m'.generation = m.generation →
        v' = ⟨v.objectIncarnation, false, subject⟩)

section Placed

variable {limits : Limits} {historyPerKey : UInt32} {s s' : RegistryState} {e : Evidence}
  {m : Attestation}

theorem Placed.empty (id : RegistryId) (openedAt : Timestamp) :
    Placed { id := id, openedAt := openedAt } := by
  refine ⟨?_, ?_⟩
  · intro key m v h
    rw [winner_empty] at h
    exact absurd h (by simp)
  · intro subject owner m v h
    rw [winner_empty] at h
    exact absurd h (by simp)

theorem Placed.quiet (h : Placed s) (hq : Quiet limits s s') : Placed s' := by
  have hw := winner_quiet hq
  refine ⟨?_, ?_⟩
  · rw [hw]
    exact h.occupied
  · rw [hw]
    exact h.attached

theorem isReincarnation_of_port_mem {v : PortValue} (h : .port key v ∈ claimsOf owner payload) :
    payload.isReincarnation = false := by
  cases payload with
  | reincarnateObject p => simp [claimsOf] at h
  | _ => rfl

/-- **A record keeps the two in agreement**, whichever of its keys it wins. -/
theorem Placed.accepts (h : Placed s) (ha : Accepts limits historyPerKey s e m s') : Placed s' := by
  refine ⟨?_, ?_⟩
  · intro key m' v hw hv
    rcases winner_cases ha (.port key) with heq | ⟨u, hu, hk, -, heq⟩
    · -- The slot is as it was; the side may have a newer word.
      obtain ⟨m₀, v₀, hsub, hle, hsame⟩ := h.occupied key m' v (heq ▸ hw) hv
      rcases winner_mono ha hsub with hstay | ⟨u, -, hk, hlt, hnew⟩
      · exact ⟨m₀, v₀, hstay, hle, hsame⟩
      · obtain ⟨-, v', rfl⟩ := eq_subject_of_key hk
        have hgt : m'.generation < m.generation := UInt64.lt_of_le_of_lt hle hlt
        refine ⟨_, v', hnew, UInt64.le_of_lt hgt, ?_⟩
        intro heq'
        have hlt' : m'.generation < m'.generation := lt_of_lt_of_eq hgt heq'
        exact absurd hlt' (UInt64.lt_irrefl _)
    · -- The slot is the record's; the record makes a claim about the side as well.
      obtain ⟨v', rfl⟩ := eq_port_of_key hk
      rw [hw] at heq
      obtain ⟨rfl, hv'⟩ := Prod.mk.inj (Option.some.inj heq)
      obtain rfl := ClaimValue.port.inj hv'
      obtain ⟨howner, sv, hmem, hattached, hport, hslot, hinc⟩ := subject_mem_of_port_mem hu hv
      obtain ⟨m₁, v₁, hwin, hle, hsame⟩ := winner_claimed ha (isReincarnation_of_port_mem hu) hmem
      obtain ⟨v₁', hv₁⟩ := winner_subject hwin
      simp only at hv₁
      subst hv₁
      refine ⟨m₁, v₁', ?_, hle, ?_⟩
      · rw [howner]
        exact hwin
      · intro heq'
        have hvalue : v₁' = sv := by
          rcases hsame heq' with hsame | hsame
          · exact ClaimValue.subject.inj hsame
          · exact ClaimValue.subject.inj (of_decide_eq_true hsame)
        rw [hvalue]
        exact ⟨hattached, hport, hslot, hinc⟩
  · intro subject owner m' v hw hv
    rcases winner_cases ha (.subject subject owner) with heq | ⟨u, hu, hk, -, heq⟩
    · obtain ⟨m₀, v₀, hport, hle, hsame⟩ := h.attached subject owner m' v (heq ▸ hw) hv
      rcases winner_mono ha hport with hstay | ⟨u, -, hk, hlt, hnew⟩
      · exact ⟨m₀, v₀, hstay, hle, hsame⟩
      · obtain ⟨v', rfl⟩ := eq_port_of_key hk
        have hgt : m'.generation < m.generation := UInt64.lt_of_le_of_lt hle hlt
        refine ⟨_, v', hnew, UInt64.le_of_lt hgt, ?_⟩
        intro heq'
        have hlt' : m'.generation < m'.generation := lt_of_lt_of_eq hgt heq'
        exact absurd hlt' (UInt64.lt_irrefl _)
    · obtain ⟨rfl, v', rfl⟩ := eq_subject_of_key hk
      rw [hw] at heq
      obtain ⟨rfl, hv'⟩ := Prod.mk.inj (Option.some.inj heq)
      obtain rfl := ClaimValue.subject.inj hv'
      have hmem := port_mem_of_subject_mem hu hv
      obtain ⟨m₁, v₁, hwin, hle, hsame⟩ := winner_claimed ha (isReincarnation_of_port_mem hmem) hmem
      obtain ⟨v₁', hv₁⟩ := winner_port hwin
      simp only at hv₁
      subst hv₁
      refine ⟨m₁, v₁', hwin, hle, ?_⟩
      intro heq'
      rcases hsame heq' with hsame | hsame
      · exact ClaimValue.port.inj hsame
      · exact ClaimValue.port.inj (of_decide_eq_true hsame)

end Placed

/-! ### Records of two keys -/

/-- A slot and a side that hold one record of a source hold it with the same attestation. -/
def Paired (s : RegistryState) : Prop :=
  ∀ key m v, s.stored (.port key) = some (m, .port v) → v.empty = false →
    ∀ m' v', s.stored (.subject v.subject key.owner) = some (m', .subject v') →
      m'.generation = m.generation → m' = m

section Paired

variable {limits : Limits} {historyPerKey : UInt32} {s s' : RegistryState} {e : Evidence}
  {m : Attestation}

theorem winner_of_stored (h : s.stored k = some (m, v)) :
    s.winner k = some (m.blur coreBlur, v) := by
  rw [winner_eq_stored, h]
  rfl

theorem stored_of_winner (h : s.winner k = some (m, v)) :
    ∃ m₀, s.stored k = some (m₀, v) ∧ m₀.blur coreBlur = m := by
  rw [winner_eq_stored] at h
  obtain ⟨w, hw, heq⟩ := Option.map_eq_some_iff.mp h
  obtain ⟨rfl, rfl⟩ := Prod.mk.inj heq
  exact ⟨w.1, hw, rfl⟩

theorem Paired.empty (id : RegistryId) (openedAt : Timestamp) :
    Paired { id := id, openedAt := openedAt } := by
  intro key m v h
  have hw := winner_of_stored h
  rw [winner_empty] at hw
  exact absurd hw (by simp)

theorem Paired.quiet (h : Paired s) (hq : Quiet limits s s') : Paired s' := by
  cases hq with
  | opened d i t hadm =>
    intro key m v
    unfold RegistryState.stored
    simp only [Registry.openState_lookup]
    exact h key m v
  | touched key session hkey =>
    intro key m v
    unfold RegistryState.stored
    simp only [lookup_sessions]
    exact h key m v
  | restarted s₀ hcore =>
    intro key m v hport hempty m' v' hsubject hgen
    rw [stored_clearVolatile hcore] at hport hsubject
    obtain ⟨m₀, hport₀, rfl⟩ := stored_of_winner hport
    obtain ⟨m₀', hsubject₀, rfl⟩ := stored_of_winner hsubject
    rw [h key m₀ v hport₀ hempty m₀' v' hsubject₀ hgen]

/-- **A record that takes the slot takes the side as well**, or the side has a newer word. -/
theorem Paired.accepts (h : Paired s) (hp : Placed s) (ha : Accepts limits historyPerKey s e m s') :
    Paired s' := by
  intro key m₁ v hport hempty m₂ v₂ hsubject hgen
  rcases stored_cases ha (.port key) with heq | ⟨u, hu, hk, ho, heq⟩
  · rw [heq] at hport
    rcases stored_cases ha (.subject v.subject key.owner) with heq' | ⟨u, -, hk, ho, heq'⟩
    · rw [heq'] at hsubject
      exact h key m₁ v hport hempty m₂ v₂ hsubject hgen
    · -- The side has a newer word than the one that came with the slot.
      obtain ⟨m₀, v₀, hwin, hle, -⟩ := hp.occupied key _ v (winner_of_stored hport) hempty
      rw [hsubject] at heq'
      obtain ⟨rfl, -⟩ := Prod.mk.inj (Option.some.inj heq')
      have hlt := UInt64.lt_of_le_of_lt hle (lt_of_insert ha ho (by rw [hk]; exact hwin))
      exact absurd (lt_of_lt_of_eq hlt hgen) (UInt64.lt_irrefl _)
  · obtain ⟨v', rfl⟩ := eq_port_of_key hk
    rw [hport] at heq
    obtain ⟨rfl, hv'⟩ := Prod.mk.inj (Option.some.inj heq)
    obtain rfl := ClaimValue.port.inj hv'
    obtain ⟨howner, sv, hmem, hattached, hplace, hslot, -⟩ := subject_mem_of_port_mem hu hempty
    rcases stored_cases ha (.subject v.subject key.owner) with heq' | ⟨u, -, -, -, heq'⟩
    · -- Had the side been there before, the slot would hold the record already.
      obtain ⟨m₃, v₃, hwin, -, hsame⟩ := winner_claimed ha (isReincarnation_of_port_mem hu) hmem
      rw [show (ClaimUpdate.subject v.subject sv).key e.key = .subject v.subject key.owner by
        rw [howner]; rfl, winner_of_stored hsubject] at hwin
      obtain ⟨rfl, rfl⟩ := Prod.mk.inj (Option.some.inj hwin)
      have hvalue : v₂ = sv := by
        rcases hsame hgen with hsame | hsame
        · exact ClaimValue.subject.inj hsame
        · exact ClaimValue.subject.inj (of_decide_eq_true hsame)
      subst hvalue
      rw [heq'] at hsubject
      obtain ⟨m₀, v₀, hold, hle, -⟩ :=
        hp.attached v.subject key.owner _ v₂ (winner_of_stored hsubject) hattached
      rw [hplace, hslot] at hold
      have hlt := UInt64.lt_of_le_of_lt hle (lt_of_insert ha ho hold)
      exact absurd (lt_of_eq_of_lt hgen.symm hlt) (UInt64.lt_irrefl _)
    · rw [hsubject] at heq'
      exact (Prod.mk.inj (Option.some.inj heq')).1

end Paired

/-! ### All of them -/

/-- The invariants of a reachable state. -/
structure Consistent (limits : Limits) (es : List Evidence) (s : RegistryState) : Prop where
  sourced : Sourced s
  owned : Owned s
  placed : Placed s
  paired : Paired s
  grounded : Grounded limits es s

theorem Consistent.empty (limits : Limits) (id : RegistryId) (openedAt : Timestamp) :
    Consistent limits [] { id := id, openedAt := openedAt } :=
  ⟨.empty id openedAt, .empty id openedAt, .empty id openedAt, .empty id openedAt,
    .empty limits id openedAt⟩

theorem Consistent.trace {es' : List Evidence} (h : Consistent limits es s)
    (ht : Trace limits historyPerKey s es' s') :
    Consistent limits (es ++ es') s' := by
  induction ht with
  | nil =>
    rw [List.append_nil]
    exact h
  | quiet _ hq ih =>
    exact ⟨ih.sourced.quiet hq, ih.owned.quiet ih.sourced hq, ih.placed.quiet hq, ih.paired.quiet hq,
      ih.grounded.quiet hq⟩
  | accepts _ ha ih =>
    rw [← List.append_assoc]
    exact ⟨ih.sourced.accepts ha, ih.owned.accepts ha, ih.placed.accepts ha,
      ih.paired.accepts ih.placed ha, ih.grounded.accepts ha⟩

/-- **Every reachable state is consistent.** -/
theorem Trace.consistent {id : RegistryId} {openedAt : Timestamp}
    (h : Trace limits historyPerKey { id := id, openedAt := openedAt } es s) :
    Consistent limits es s :=
  (Consistent.empty limits id openedAt).trace h

/-! ### Runs under a condition -/

/-- **A request accepts a record or leaves every winner.** -/
theorem Effect.winner_cases {limits : Limits} {historyPerKey : UInt32} {s s' : RegistryState}
    {q : Request} {es : List Evidence} (h : Effect limits historyPerKey s q es s') :
    s'.winner = s.winner ∨ ∃ e m t io, q = .ingest e t io ∧ Accepts limits historyPerKey s e m s' := by
  cases h with
  | nothing => exact .inl rfl
  | opened d i t t' io hadm =>
    have hq : Quiet limits s (Registry.openState s d i t') := .opened d i t' hadm
    exact .inl (winner_quiet hq)
  | touched q key session hkey =>
    have hq : Quiet limits s { s with sessions := s.sessions.insert key session } :=
      .touched key session hkey
    exact .inl (winner_quiet hq)
  | accepted t io ha => exact .inr ⟨_, _, t, io, rfl, ha⟩
  | restarted env s₀ hcore =>
    have hq : Quiet limits s (clearVolatile s₀) := .restarted s₀ hcore
    exact .inl (winner_quiet hq)

namespace Registry

/-- What the requests of a run keep, from a registry in the middle of the run. -/
theorem Running.induction {c : RegistryState → Request → Bool} {limits : Limits}
    {historyPerKey : UInt32} {motive : List Evidence → RegistryState → Prop}
    (step : ∀ {es s q es' s'}, Consistent limits es s → WellKeyed s → c s q = true → motive es s →
      Effect limits historyPerKey s q es' s' → motive (es ++ es') s')
    {r r₁ : Registry} {requests : List Request} {es : List Evidence} (h : r.Running requests)
    (hlimits : r.limits = limits) (hhistory : r.historyPerKey = historyPerKey)
    (hc : Consistent limits es r.state) (hm : motive es r.state) (hmeets : r.meets c requests = true)
    (hrun : r.run requests = .ok r₁) : motive (es ++ r.accepted requests) r₁.state := by
  induction requests generalizing r es with
  | nil =>
    obtain rfl : r = r₁ := Except.ok.inj hrun
    rw [show r.accepted [] = [] from rfl, List.append_nil]
    exact hm
  | cons q requests ih =>
    obtain ⟨r₂, hstep, hrun⟩ := foldlM_cons_eq_ok.mp hrun
    simp only [accepted, hstep]
    unfold meets at hmeets
    rw [Bool.and_eq_true] at hmeets
    obtain ⟨hq, hrest⟩ := hmeets
    rw [hstep] at hrest
    obtain ⟨hrunning, hcfg, heffect⟩ := h.step hstep
    rw [hlimits, hhistory] at heffect
    rw [← List.append_assoc]
    exact ih hrunning (hcfg.limits.trans hlimits) (hcfg.historyPerKey.trans hhistory)
      (hc.trace heffect.trace) (step hc h.wellKeyed hq hm heffect) hrest hrun

/-- **What holds of the empty state and is kept by every request that meets the condition
holds in every state that is reached under the condition.** -/
theorem ReachedUnder.induction {c : RegistryState → Request → Bool} {r : Registry}
    {options : RegistryOptions} {requests : List Request} {es : List Evidence}
    (h : r.ReachedUnder c options requests es) {motive : List Evidence → RegistryState → Prop}
    (empty : ∀ id openedAt, motive [] { id := id, openedAt := openedAt })
    (step : ∀ {es s q es' s'}, Consistent r.limits es s → WellKeyed s → c s q = true → motive es s →
      Effect r.limits r.historyPerKey s q es' s' → motive (es ++ es') s') : motive es r.state := by
  obtain ⟨horderly, disk, env, r₀, hfresh, hopen, hrun, hes, hmeets⟩ := h
  obtain ⟨hrunning, -, -, hstate⟩ := running_of_open hfresh hopen horderly
  have hrunning' : r₀.Running (requests ++ []) := by
    rw [List.append_nil]
    exact hrunning
  obtain ⟨-, hcfg, -⟩ := hrunning'.run hrun
  have hconsistent : Consistent r.limits [] r₀.state := by
    rw [hstate]
    exact .empty _ _ _
  have hinitial : motive [] r₀.state := by
    rw [hstate]
    exact empty _ _
  rw [← hes]
  exact hrunning.induction step hcfg.limits.symm hcfg.historyPerKey.symm hconsistent hinitial hmeets hrun

end Registry

end CableRegistry
