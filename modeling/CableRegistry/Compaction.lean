import CableRegistry.Attestations
import CableRegistry.Faults
import CableRegistry.Resources
import CableRegistry.Restoration

/-!
# Compaction and what is read back

A compaction replaces the log by one image of the state.  The decoder of the image puts bounds on
counts that nothing bounds while the registry lives, and it knows fewer connectors and media than the
registry takes in.

* `imageContents_iff`: of the records of a reached state, the decoder refuses only port capabilities
  outside the vocabulary.
* `Housed.compact_reopens_iff`: a compacted log can be opened exactly when its image can be read.
* `compact_loses_nothing_iff`: a compaction that succeeds leaves a log that opens to the same claims,
  sources and sessions exactly when the counts are within the decoder's bounds and every stored
  port capability is within the vocabulary.
-/

open Std

namespace CableRegistry

/-! ### Values -/

/-- The decoder of the value's map accepts it. -/
def ClaimValue.Readable (limits : Limits) : ClaimValue → Prop
  | .objectRegistration d => d.Readable limits
  | .endpointRegistration d => d.Readable limits
  | .subject v => v.objectIncarnation ≠ 0
  | .port _ => True
  | .lifecycle v => v.action.declared
  | .reincarnation v => v.fromIncarnation ≠ 0 ∧ v.target = v.fromIncarnation + 1
  | .objectCapability c => c.declared
  | .portCapability c => c.InRange limits ∧ c.declared

/-- The port capability in the value, if there is one, is within the vocabulary. -/
def ClaimValue.declared : ClaimValue → Bool
  | .endpointRegistration d => d.defaultPortCapability.declared
  | .portCapability c => c.declared
  | _ => true

theorem PositionClaim.incarnation_subjectValue (claim : PositionClaim) :
    claim.subjectValue.objectIncarnation = claim.incarnation := by
  unfold PositionClaim.subjectValue
  dsimp only
  split <;> rfl

/-- **What passed the shape check can be read back**, but for the vocabulary of a port capability. -/
theorem value_readable_iff {limits : Limits} {owner : SourceIncarnationKey} {payload : EvidencePayload}
    (h : validatePayload payload limits = .ok ()) {u : ClaimUpdate} (hu : u ∈ claimsOf owner payload) :
    u.value.Readable limits ↔ u.value.declared = true := by
  have hreadable := payload_readable_iff h
  cases payload with
  | registerObject p =>
    obtain rfl := List.mem_singleton.mp hu
    exact ⟨fun _ => rfl, fun _ => objectDescriptor_readable h⟩
  | registerEndpoint p =>
    obtain rfl := List.mem_singleton.mp hu
    exact endpointDescriptor_readable_iff h
  | publishPortCapability p =>
    obtain rfl := List.mem_singleton.mp hu
    exact hreadable.trans (Bool.not_eq_false' _).to_iff
  | publishObjectCapability p =>
    obtain rfl := List.mem_singleton.mp hu
    exact ⟨fun _ => rfl, fun _ => hreadable.mpr rfl⟩
  | setLifecycle p =>
    obtain rfl := List.mem_singleton.mp hu
    refine ⟨fun _ => rfl, fun _ => ?_⟩
    simp only [validatePayload, refuseIf_bind_eq_ok] at h
    simpa [ClaimUpdate.value, ClaimValue.Readable] using h.2.2.1
  | reincarnateObject p =>
    obtain rfl := List.mem_singleton.mp hu
    refine ⟨fun _ => rfl, fun _ => ⟨?_, rfl⟩⟩
    simp only [validatePayload, refuseIf_bind_eq_ok] at h
    intro hzero
    have hfrom : p.fromIncarnation = 0 := hzero
    simp [hfrom] at h
  | attach p | detach p | move p =>
    simp only [validatePayload, refuseIf_bind_eq_ok] at h
    rcases List.mem_cons.mp hu with rfl | hu
    · refine ⟨fun _ => rfl, fun _ hzero => ?_⟩
      have hinc : p.objectIncarnation = 0 := (PositionClaim.incarnation_subjectValue _).symm.trans hzero
      simp [hinc] at h
    · obtain ⟨update, -, rfl⟩ := List.mem_map.mp hu
      exact ⟨fun _ => rfl, fun _ => trivial⟩

/-! ### Groups -/

section Groups

variable {κ ι ν μ : Type} [Ord κ] [TransOrd κ] [LawfulEqOrd κ] [Ord ι] [TransOrd ι] [LawfulEqOrd ι]

theorem entriesReadable_iff {owner : ι → SourceIncarnationKey} {n : UInt32} {good : ν → Prop}
    {groups : Groups κ ι ν} : EntriesReadable owner n good groups ↔
      ∀ k i f, OrdMap.find₂ groups k i = some f → (owner i).Named ∧ f.Readable n good := by
  constructor
  · intro h k i f hf
    obtain ⟨inner, hinner, hf⟩ := Option.bind_eq_some_iff.mp hf
    exact h (k, inner) (OrdMap.mem_toList.mpr hinner) (i, f) (OrdMap.mem_toList.mpr hf)
  · intro h e he f hf
    refine h e.1 f.1 f.2 ?_
    rw [OrdMap.find₂, OrdMap.mem_toList.mp he]
    exact OrdMap.mem_toList.mp hf

theorem readable_mapValue {n : UInt32} {good : μ → Prop} (c : ν → μ) (f : Folded ν) :
    (f.mapValue c).Readable n good ↔ f.Readable n fun v => good (c v) :=
  ⟨fun h => ⟨h.metadata, h.value, h.ring, h.ringLength⟩,
    fun h => ⟨h.metadata, h.value, h.ring, h.ringLength⟩⟩

end Groups

/-! ### Reached states -/

/-- Whoever speaks in the state has a name and a declared authority. -/
structure Attested (s : RegistryState) : Prop where
  sources : ∀ (source : SourceId) (record : SourceRecord), s.sources[source]? = some record →
    record.Readable
  sessions : ∀ key, s.sessions.contains key = true → key.Named
  attestations : ∀ k, ∀ a ∈ s.attestations k, a.Readable

variable {k : ClaimKey} {f : Folded ClaimValue} {es : List Evidence} {requests : List Request}
  {io : Store.RewriteIo}

section Attested

variable {limits : Limits} {historyPerKey : UInt32} {s s' : RegistryState} {e : Evidence}
  {m : Attestation}

theorem Attested.empty (id : RegistryId) (openedAt : Timestamp) :
    Attested { id := id, openedAt := openedAt } := by
  refine ⟨by simp, by simp, ?_⟩
  intro k a ha
  cases k <;> simp [RegistryState.attestations, RegistryState.lookup, OrdMap.find₂] at ha

theorem attestations_congr (h : s'.lookup k = s.lookup k) :
    s'.attestations k = s.attestations k := by
  unfold RegistryState.attestations
  rw [h]

theorem Attested.opened (h : Attested s) (hs : Sourced s) {d : SourceDescriptor} {i : Incarnation}
    (hadm : Registry.Admissible s limits d i) (t : Timestamp) :
    Attested (Registry.openState s d i t) := by
  obtain ⟨session, hsessions⟩ := Registry.openState_sessions s d i t
  refine ⟨?_, ?_, ?_⟩
  · intro source record hrecord
    rw [hs.sources_openState hadm, OrdMap.find_insert] at hrecord
    split at hrecord
    · obtain rfl := Option.some.inj hrecord
      exact ⟨hadm.declared, hadm.named⟩
    · exact h.sources source record hrecord
  · intro key hkey
    rw [hsessions, ExtTreeMap.contains_insert, Bool.or_eq_true, beq_iff_eq, OrdMap.compare_eq_iff]
      at hkey
    rcases hkey with rfl | hkey
    · exact ⟨hadm.named, hadm.positive⟩
    · exact h.sessions key hkey
  · intro k a ha
    rw [attestations_congr (Registry.openState_lookup s d i t k)] at ha
    exact h.attestations k a ha

theorem Attested.quiet (h : Attested s) (hs : Sourced s) (hq : Quiet limits s s') : Attested s' := by
  cases hq with
  | opened d i t hadm => exact h.opened hs hadm t
  | touched key session hkey =>
    refine ⟨h.sources, ?_, ?_⟩
    · intro key' hkey'
      rw [ExtTreeMap.contains_insert, Bool.or_eq_true, beq_iff_eq, OrdMap.compare_eq_iff] at hkey'
      rcases hkey' with rfl | hkey'
      · exact h.sessions key hkey
      · exact h.sessions key' hkey'
    · intro k a ha
      rw [attestations_congr (lookup_sessions s _ k)] at ha
      exact h.attestations k a ha
  | restarted s₀ hcore =>
    have hcore' := (core_clearVolatile s₀).trans hcore
    refine ⟨?_, ?_, ?_⟩
    · rw [sources_of_core hcore']
      exact h.sources
    · intro key hkey
      rw [contains_of_core hcore'] at hkey
      exact h.sessions key hkey
    · intro k a ha
      obtain ⟨-, a₀, ha₀, hblur⟩ := attestations_clearVolatile hcore ha
      obtain ⟨howner, hprovenance, hauthority⟩ := h.attestations k a₀ ha₀
      have heq : a.owner = a₀.owner ∧ a.provenance = a₀.provenance ∧ a.authority = a₀.authority :=
        ⟨(congrArg Attestation.owner hblur).symm, (congrArg Attestation.provenance hblur).symm,
          (congrArg Attestation.authority hblur).symm⟩
      exact ⟨heq.1 ▸ howner, heq.2.1 ▸ hprovenance, heq.2.2 ▸ hauthority⟩

theorem Attested.accepts (h : Attested s) (ha : Accepts limits historyPerKey s e m s') :
    Attested s' := by
  refine ⟨?_, ?_, ?_⟩
  · rw [ha.sources]
    exact h.sources
  · intro key hkey
    rw [ha.contains] at hkey
    exact h.sessions key hkey
  · intro k a hmem
    rcases attestations_accepts ha hmem with hmem | ⟨rfl, -⟩
    · exact h.attestations k a hmem
    · obtain ⟨source, t, hsource, -, rfl⟩ := ha.source
      have hheader := header_readable_of_shape ha.shape
      exact ⟨h.sessions e.key ha.session, hheader.provenance, (h.sources _ _ hsource).authority⟩

/-- **In every state that is reached, whoever speaks has a name.** -/
theorem Attested.trace {id : RegistryId} {openedAt : Timestamp}
    (ht : Trace limits historyPerKey { id := id, openedAt := openedAt } es s) : Attested s := by
  induction ht with
  | nil => exact .empty id openedAt
  | quiet ht hq ih => exact ih.quiet ht.consistent.sourced hq
  | accepts _ ha ih => exact ih.accepts ha

end Attested

/-- The port capabilities that are stored are within the vocabulary. -/
structure RegistryState.WithinVocabulary (s : RegistryState) : Prop where
  endpoints : ∀ endpoint owner f, OrdMap.find₂ s.endpointRegistrations endpoint owner = some f →
    f.value.defaultPortCapability.declared
  ports : ∀ port owner f, OrdMap.find₂ s.portCapabilityRecords port owner = some f →
    f.value.declared

section Contents

variable {limits : Limits} {es : List Evidence} {s : RegistryState} {n : Nat}

theorem RegistryState.WithinVocabulary.lookup (h : s.WithinVocabulary) (hf : s.lookup k = some f) :
    f.value.declared = true := by
  cases k with
  | endpointRegistration endpoint owner =>
    obtain ⟨f₀, hf₀, rfl⟩ := Option.map_eq_some_iff.mp hf
    exact h.endpoints endpoint owner f₀ hf₀
  | portCapability port owner =>
    obtain ⟨f₀, hf₀, rfl⟩ := Option.map_eq_some_iff.mp hf
    exact h.ports port owner f₀ hf₀
  | _ =>
    obtain ⟨f₀, -, rfl⟩ := Option.map_eq_some_iff.mp hf
    rfl

/-- A stored record is readable, if what it says is. -/
theorem Attested.readable (h : Attested s) (hc : Consistent limits es s) (hr : RingsWithin n s)
    (hn : n ≤ limits.maxHistoryPerKey.toNat) (hf : s.lookup k = some f)
    (hdeclared : f.value.declared = true) :
    k.owner.Named ∧ f.Readable limits.maxHistoryPerKey (·.Readable limits) := by
  have hmem : ∀ a ∈ f.metadata :: f.superseded, a ∈ s.attestations k := by
    intro a ha
    unfold RegistryState.attestations
    rw [hf]
    exact ha
  have hw : s.winner k = some (f.metadata.blur coreBlur, f.value) := by
    unfold RegistryState.winner
    rw [hf]
    rfl
  obtain ⟨e, he, u, hu, -, hvalue, -⟩ := hc.grounded.source _ _ _ hw
  refine ⟨h.sessions _ (hc.owned.session k _ hw), ?_, ?_, ?_, ?_⟩
  · exact h.attestations k _ (hmem _ List.mem_cons_self)
  · rw [← hvalue]
    exact (value_readable_iff (payload_of_shape (hc.grounded.valid e he)) hu).mpr
      (by rw [hvalue]; exact hdeclared)
  · exact fun a ha => h.attestations k a (hmem a (List.mem_cons_of_mem _ ha))
  · exact (hr k f hf).trans hn

/-- The entries of a map whose keys are a claim's and its owner. -/
theorem entriesReadable_keyed {κ ν : Type} [Ord κ] [TransOrd κ] [LawfulEqOrd κ]
    {groups : Groups κ SourceIncarnationKey ν} {c : ν → ClaimValue}
    (key : κ → SourceIncarnationKey → ClaimKey) (howner : ∀ k i, (key k i).owner = i)
    (hlookup : ∀ k i, s.lookup (key k i) = (OrdMap.find₂ groups k i).map (.mapValue c))
    (hall : ∀ k f, s.lookup k = some f →
      k.owner.Named ∧ f.Readable limits.maxHistoryPerKey (·.Readable limits)) :
    EntriesReadable (fun owner => owner) limits.maxHistoryPerKey (fun v => (c v).Readable limits)
      groups := by
  refine entriesReadable_iff.mpr fun k i f hf => ?_
  have hread := hall (key k i) (f.mapValue c) (by rw [hlookup, hf]; rfl)
  rw [howner] at hread
  exact ⟨hread.1, (readable_mapValue c f).mp hread.2⟩

/-- **What the decoder refuses of a reached state.** -/
theorem imageContents_iff (h : Attested s) (hw : WellKeyed s) (hc : Consistent limits es s)
    (hr : RingsWithin n s) (hn : n ≤ limits.maxHistoryPerKey.toNat) :
    s.ImageContents limits ↔ s.WithinVocabulary := by
  constructor
  · intro hcontents
    refine ⟨?_, ?_⟩
    · intro endpoint owner f hf
      exact (entriesReadable_iff.mp hcontents.endpointRegistrations endpoint owner f hf).2.value.declared
    · intro port owner f hf
      exact (entriesReadable_iff.mp hcontents.portCapabilityRecords port owner f hf).2.value.2
  · intro hvocabulary
    have hall : ∀ k f, s.lookup k = some f →
        k.owner.Named ∧ f.Readable limits.maxHistoryPerKey (·.Readable limits) :=
      fun k f hf => h.readable hc hr hn hf (hvocabulary.lookup hf)
    refine ⟨?_, ?_, entriesReadable_keyed .objectRegistration (fun _ _ => rfl) (fun _ _ => rfl) hall,
      entriesReadable_keyed .endpointRegistration (fun _ _ => rfl) (fun _ _ => rfl) hall,
      entriesReadable_keyed .subject (fun _ _ => rfl) (fun _ _ => rfl) hall, ?_,
      entriesReadable_keyed .lifecycle (fun _ _ => rfl) (fun _ _ => rfl) hall,
      entriesReadable_keyed .reincarnation (fun _ _ => rfl) (fun _ _ => rfl) hall,
      entriesReadable_keyed .objectCapability (fun _ _ => rfl) (fun _ _ => rfl) hall,
      entriesReadable_keyed .portCapability (fun _ _ => rfl) (fun _ _ => rfl) hall⟩
    · exact fun e he => h.sources e.1 e.2 (OrdMap.mem_toList.mp he)
    · intro e he
      refine h.sessions e.1 ?_
      rw [ExtTreeMap.contains_eq_isSome_getElem?, OrdMap.mem_toList.mp he]
      rfl
    · refine entriesReadable_iff.mpr fun port key f hf => ?_
      have hport := hw.port_eq port key f hf
      have hread := hall (.port key) (f.mapValue .port) (by
        show (OrdMap.find₂ s.portRecords key.port key).map _ = _
        rw [hport, hf]
        rfl)
      exact ⟨hread.1, (readable_mapValue _ f).mp hread.2⟩

end Contents

attribute [mk_iff] RegistryState.ImageCounts

instance (limits : Limits) (s : RegistryState) : Decidable (s.ImageCounts limits) :=
  decidable_of_iff _ (RegistryState.imageCounts_iff limits s).symm

/-! ### What a blur keeps -/

section Blurred

variable (b : Blur) (s : RegistryState)

theorem countsWithin_blurGroups {κ ι ν : Type} [Ord κ] [TransOrd κ] [LawfulEqOrd κ] [Ord ι]
    [TransOrd ι] [LawfulEqOrd ι] {maxPrimary maxOwners : UInt32} {groups : Groups κ ι ν} :
    CountsWithin maxPrimary maxOwners (blurGroups b groups) ↔
      CountsWithin maxPrimary maxOwners groups := by
  unfold CountsWithin
  rw [size_blurGroups, toList_blurGroups]
  simp only [List.forall_mem_map, size_blurOwners]

theorem imageCounts_blur (limits : Limits) :
    (s.blur b).ImageCounts limits ↔ s.ImageCounts limits := by
  simp only [RegistryState.imageCounts_iff, RegistryState.blur, ExtTreeMap.size_map,
    countsWithin_blurGroups]

theorem forall_value_blurGroups {κ ι ν : Type} [Ord κ] [TransOrd κ] [LawfulEqOrd κ] [Ord ι]
    [TransOrd ι] [LawfulEqOrd ι] (groups : Groups κ ι ν) (good : ν → Prop) :
    (∀ k i f, OrdMap.find₂ (blurGroups b groups) k i = some f → good f.value) ↔
      ∀ k i f, OrdMap.find₂ groups k i = some f → good f.value := by
  simp only [find₂_blurGroups, Option.map_eq_some_iff, forall_exists_index, and_imp,
    forall_apply_eq_imp_iff₂]
  rfl

theorem withinVocabulary_blur : (s.blur b).WithinVocabulary ↔ s.WithinVocabulary := by
  have hendpoints := forall_value_blurGroups b s.endpointRegistrations
    fun d => d.defaultPortCapability.declared = true
  have hports := forall_value_blurGroups b s.portCapabilityRecords fun c => c.declared = true
  exact ⟨fun h => ⟨hendpoints.mp h.endpoints, hports.mp h.ports⟩,
    fun h => ⟨hendpoints.mpr h.endpoints, hports.mpr h.ports⟩⟩

end Blurred

theorem clearVolatile_clearVolatile (s : RegistryState) :
    clearVolatile (clearVolatile s) = clearVolatile s := by
  have hsessions : (clearVolatile (clearVolatile s)).sessions = (clearVolatile s).sessions := by
    apply ExtTreeMap.ext_getElem?
    intro key
    simp only [clearVolatile, RegistryState.blur, ExtTreeMap.getElem?_map, Option.map_map]
    rfl
  rw [clearVolatile_of_core (core_clearVolatile s), hsessions]
  rfl

/-! ### The store of a registry -/

theorem Store.rewrite_notReopened (store : Store) (records : List StoreRecord) (error : Error) :
    ∃ error', (store.rewrite records (.notReopened error)).2 = .error error' := by
  unfold rewrite
  split
  · exact ⟨_, rfl⟩
  split
  · exact ⟨_, rfl⟩
  cases records.forM (checkRewrite store.options) with
  | error error' => exact ⟨error', rfl⟩
  | ok _ => exact ⟨error, rfl⟩

namespace Registry

theorem storeOptions_eq {r : Registry} {store : Store} (hs : r.store = some store) :
    r.storeOptions = some store.options := by
  unfold storeOptions
  rw [hs]
  rfl

theorem Does.storeOptions {r r₁ : Registry} {q : Request} (h : Does r q r₁) :
    r₁.storeOptions = r.storeOptions := by
  cases h with
  | wrote _ hwrote => exact (hwrote.rest r₁.state).storeOptions
  | opened hwrote => exact (hwrote.rest _).storeOptions
  | closed hwrote => exact (hwrote.rest _).storeOptions
  | ingested e t io =>
    have hi := r.ingests e t true true io
    unfold ingest
    generalize r.ingestLocked e t true true io = answer at hi ⊢
    cases hi with
    | stopping _ => rfl
    | refused _ _ => rfl
    | decided _ _ hc =>
      unfold Registry.storeOptions
      rw [(conclude_spec e true _ _).2.2.1]
      exact hc.storeOptions

/-- The registry has the store and the identity that its options name. -/
structure Housed (r : Registry) : Prop where
  store : r.storeOptions = r.options.store
  usable : ∀ storeOptions, r.options.store = some storeOptions → Store.Usable storeOptions
  named : r.state.id.isNil = false
  own : r.options.id.isNil = false → r.state.id = r.options.id

section Housed

variable {r r₁ : Registry} {options : RegistryOptions} {disk : Option (List UInt8)} {env : OpenEnv}

theorem mintId_own (r : Registry) (draw : Id128)
    (howned : r.state.id.isNil = false → r.options.id.isNil = false → r.state.id = r.options.id)
    (h : r.options.id.isNil = false) : (r.mintId draw).state.id = r.options.id := by
  rw [mintId_id]
  cases hnil : r.state.id.isNil with
  | true => simp [h]
  | false => exact howned hnil h

theorem housed_of_open (hopen : (Registry.open options disk env).2 = .ok r) :
    r.Housed ∧ checkOptions options = .ok () := by
  obtain ⟨_, hopens⟩ := opens_of_ok hopen
  cases hopens with
  | volatile hcheck hnone =>
    refine ⟨⟨hnone.symm, fun storeOptions hsome => ?_, isNil_mintId _ _, ?_⟩, hcheck⟩
    · exact absurd (hnone.symm.trans hsome) (by simp)
    · exact mintId_own (initial options env.now) env.draw fun _ _ => rfl
  | @replayed _ _ records r₀ _ hcheck hreads _ hreplay howned =>
    have hoptions : r₀.options = options := (replayAll_config records hreplay).1.options
    rw [← hoptions] at howned
    refine ⟨⟨?_, fun storeOptions hsome => ?_, isNil_mintId _ _, mintId_own r₀ env.draw howned⟩, hcheck⟩
    · exact (hoptions ▸ hreads.stored).symm
    · obtain rfl := Option.some.inj ((hoptions ▸ hreads.stored).symm.trans hsome)
      exact hreads.holds.usable
  | created hcheck hreads =>
    refine ⟨⟨hreads.stored.symm, fun storeOptions hsome => ?_, isNil_mintId _ _, ?_⟩, hcheck⟩
    · obtain rfl := Option.some.inj (hreads.stored.symm.trans hsome)
      exact hreads.holds.usable
    · exact mintId_own (initial options env.now) env.draw fun _ _ => rfl

theorem Housed.keep (h : r.Housed) (hoptions : r₁.options = r.options)
    (hid : r₁.state.id = r.state.id) (hstore : r₁.storeOptions = r.storeOptions) : r₁.Housed := by
  refine ⟨?_, ?_, ?_, ?_⟩
  · rw [hstore, hoptions]
    exact h.store
  · rw [hoptions]
    exact h.usable
  · rw [hid]
    exact h.named
  · rw [hoptions, hid]
    exact h.own

/-- **A request keeps the store and the identity**, however the write ends. -/
theorem Housed.step {q : Request} (h : r.Housed) (hstep : r.step q = .ok r₁) : r₁.Housed := by
  by_cases hq : ∃ env, q = .reopen env
  · obtain ⟨env, rfl⟩ := hq
    exact (housed_of_open hstep).1
  · have hdoes := does (not_exists.mp hq) hstep
    exact h.keep hdoes.frame.1.options hdoes.frame.2 hdoes.storeOptions

theorem Housed.run (h : r.Housed) (hrun : r.run requests = .ok r₁) :
    r₁.Housed := by
  induction requests generalizing r with
  | nil =>
    obtain rfl : r = r₁ := Except.ok.inj hrun
    exact h
  | cons q requests ih =>
    obtain ⟨r₂, hstep, hrun⟩ := foldlM_cons_eq_ok.mp hrun
    exact ih (h.step hstep) hrun

/-! ### Reading a compacted log -/

theorem tidy_of_compact (h : (r.compact io).2 = .ok ()) : io.Tidy := by
  cases io with
  | notReopened error =>
    exfalso
    unfold compact at h
    split at h
    · exact absurd h (by simp [makeError])
    split at h
    · exact absurd h (by simp [makeError])
    split at h
    · exact absurd h (by simp [makeError])
    · rename_i store _ _
      obtain ⟨error', hrefused⟩ :=
        store.rewrite_notReopened [⟨.stateSnapshot, r.imageOf.take⟩] error
      dsimp only at h
      rw [hrefused] at h
      exact absurd h (by simp [Except.mapError])
  | _ => trivial

/-- What a compaction that succeeds leaves: a log with one record, the image. -/
theorem Housed.compacted (h : r.Housed) (hcompact : (r.compact io).2 = .ok ()) :
    r.imageOf.ok = true ∧ ∃ store, (r.compact io).1 = { r with store := some store } ∧
      store.Holds storeHeader [r.imageRecord] [] ∧ r.options.store = some store.options := by
  cases hs : r.store with
  | none =>
    unfold compact at hcompact
    rw [hs] at hcompact
    split at hcompact <;> exact absurd hcompact (by simp [makeError])
  | some store =>
    have ho : r.options.store = some store.options :=
      h.store.symm.trans (storeOptions_eq hs)
    rcases compact_cases hs (h.usable _ ho) io (tidy_of_compact hcompact) with
      ⟨handleOpen, error, -, herror⟩ | ⟨hok, store', heq, -, hholds, hsame⟩
    · rw [herror] at hcompact
      exact absurd hcompact (by simp)
    · exact ⟨hok, store', heq, hholds, ho.trans (congrArg some hsame.symm)⟩

/-- An image is replayed if the decoder accepts it. -/
theorem replays_image_iff {r' : Registry} (hw : WellKeyed r.state) (hok : r.imageOf.ok = true)
    (hlimits : r'.limits = r.limits) :
    (∃ r'', r'.replayRecord r.imageRecord = .ok r'') ↔
      (clearVolatile r.state).ImageCounts r.limits ∧
        (clearVolatile r.state).ImageContents r.limits := by
  rw [← Decoder.whole_eq_some_iff (reads_imageOf hw hok)]
  constructor
  · rintro ⟨r'', h⟩
    have hback := replayRecord_image hw hok h
    unfold replayRecord imageRecord at h
    simp only [if_true, hlimits] at h
    split at h
    · exact absurd h (by simp)
    · rename_i loaded hloaded
      have hstate : loaded = clearVolatile r.state := by
        rw [hback] at h
        exact congrArg Registry.state (Except.ok.inj h)
      rw [hloaded, hstate]
  · intro hread
    refine ⟨{ r' with state := clearVolatile r.state, labelIndex := none }, ?_⟩
    unfold replayRecord imageRecord
    simp only [if_true, hlimits, hread]

section

variable (h : r.Housed) (hw : WellKeyed r.state) (hi : r.Indexed) (hcfg : r.Configured)

include h hw hi hcfg

theorem Housed.synced_compact (hcompact : (r.compact io).2 = .ok ()) :
    Synced (r.compact io).1 [r.imageRecord] := by
  obtain ⟨hok, store, heq, hholds, hstore⟩ := h.compacted hcompact
  rw [heq]
  exact Synced.of_image (r := { r with store := some store }) rfl hstore hholds hok hw hi
    ⟨hcfg.limits, hcfg.historyPerKey, hcfg.closed⟩ rfl

/-- A compacted log that opens has an image that can be read, and opens to its state. -/
theorem Housed.image_read (hcompact : (r.compact io).2 = .ok ()) {r' : Registry}
    (hopen : (Registry.open r.options (r.compact io).1.disk env).2 = .ok r') :
    ((clearVolatile r.state).ImageCounts r.limits ∧
      (clearVolatile r.state).ImageContents r.limits) ∧
    r'.state = clearVolatile { clearVolatile r.state with id := r'.state.id } := by
  obtain ⟨hok, store, heq, -⟩ := h.compacted hcompact
  have hsynced := h.synced_compact hw hi hcfg hcompact
  rw [heq] at hsynced hopen
  obtain ⟨-, -, report, r₀, id, hreplay, hback⟩ := hsynced.reopen_replays hopen
  rw [replayAll_singleton] at hreplay
  refine ⟨(replays_image_iff hw hok hcfg.limits.symm).mp ⟨r₀, hreplay⟩, ?_⟩
  have hstate : r₀.state = clearVolatile r.state :=
    congrArg Registry.state (replayRecord_image hw hok hreplay)
  have hid : r'.state.id = id := by
    rw [hback]
    rfl
  rw [hid, hback, hstate]

/-- **A compacted log opens to the state it is an image of**, if its image can be read. -/
theorem Housed.compact_reopens_iff (hcheck : checkOptions r.options = .ok ())
    (hcompact : (r.compact io).2 = .ok ()) (env : OpenEnv) :
    (∃ r', (Registry.open r.options (r.compact io).1.disk env).2 = .ok r' ∧
      r'.state = clearVolatile r.state) ↔
    (clearVolatile r.state).ImageCounts r.limits ∧
      (clearVolatile r.state).ImageContents r.limits := by
  constructor
  · rintro ⟨r', hopen, -⟩
    exact (h.image_read hw hi hcfg hcompact hopen).1
  · intro hread
    obtain ⟨hok, store, heq, hholds, hstore⟩ := h.compacted hcompact
    have hlimits : (blank r.options env.now {}).limits = r.limits := hcfg.limits.symm
    obtain ⟨r₀, hr₀⟩ := (replays_image_iff hw hok hlimits).mpr hread
    have hid : r₀.state.id = r.state.id := by
      rw [replayRecord_image hw hok hr₀]
      rfl
    obtain ⟨r₁, store', -, hid₁, -, hopen⟩ := open_of_replays hstore hholds hcheck
      ((replayAll_singleton _ _).trans hr₀) (fun _ hnil => hid.trans (h.own hnil)) env
    have hdisk : (r.compact io).1.disk = some store.file := by
      rw [heq]
      rfl
    rw [← hdisk] at hopen
    refine ⟨_, hopen, ?_⟩
    -- The image names the registry, so that no new identity is drawn.
    have hsame : (begun r₁ (some store') (r₁.mintId env.draw).state.id).state.id = r.state.id := by
      show (r₁.mintId env.draw).state.id = _
      rw [mintId_id, hid₁, hid, h.named]
      rfl
    rw [(h.image_read hw hi hcfg hcompact hopen).2, hsame]
    exact clearVolatile_clearVolatile r.state

end

theorem ReachedBy.housed (h : r.ReachedBy options requests es) :
    r.Housed ∧ checkOptions options = .ok () := by
  obtain ⟨-, disk, env₀, r₀, -, hopen, hrun, -⟩ := h
  obtain ⟨hhoused, hcheck⟩ := housed_of_open hopen
  exact ⟨hhoused.run hrun, hcheck⟩

/-- **A compaction loses nothing exactly when its image can be read.**  Let a compaction succeed in
any state that a run reaches.  The log it leaves opens under the same options, with the claim
maps, the sources and the sessions of the live state (the flags of the lifetime cleared), exactly
when every count is within the bound of the image decoder and every stored port capability is
within the vocabulary. -/
theorem compact_loses_nothing_iff {requests : List Request} {es : List Evidence}
    (h : r.ReachedBy options requests es) {io : Store.RewriteIo}
    (hcompact : (r.compact io).2 = .ok ()) (env : OpenEnv) :
    (∃ r', (Registry.open options (r.compact io).1.disk env).2 = .ok r' ∧
      r'.state = clearVolatile r.state) ↔
    r.state.ImageCounts options.limits ∧ r.state.WithinVocabulary := by
  obtain ⟨hw, hi, hconfig, hoptions, id, openedAt, htrace⟩ := h.trace
  obtain ⟨hhoused, hcheck⟩ := h.housed
  -- The image is that of the state a restart would leave.
  have htrace' := htrace.quiet (.restarted r.state rfl)
  have hrings := ((Bounded.empty r.limits r.historyPerKey id openedAt).trace htrace').rings
  have hbound : r.historyPerKey.toNat ≤ r.limits.maxHistoryPerKey.toNat := by
    rw [hconfig.historyPerKey, hconfig.limits]
    exact UInt32.le_iff_toNat_le.mp Std.min_le_right
  have hcontents := imageContents_iff (Attested.trace htrace') (hw.blur _) htrace'.consistent hrings
    hbound
  have hreopens := hhoused.compact_reopens_iff hw hi hconfig (by rw [hoptions]; exact hcheck) hcompact
    env
  rw [hcontents, hconfig.limits, hoptions] at hreopens
  exact hreopens.trans (and_congr (imageCounts_blur _ _ _) (withinVocabulary_blur _ _))

end Housed

/-- A registry with a store and room for one object. -/
def sampleCramped : RegistryOptions := { sampleStore with limits := { maxObjects := 1 } }

/-- Source 1 speaks about objects that nobody has registered. -/
def sampleStrangers (objects : List UInt64) : List Request :=
  sampleOpen 1 1 5 :: objects.map fun object => sampleIngest 1 1 object
    (.setLifecycle { object := .fromParts 0 object, objectIncarnation := 1, action := .removed })

theorem compact_eq_ok_of_isOk {r : Registry} (h : (r.compact io).2.isOk = true) :
    (r.compact io).2 = .ok () := by
  cases hresult : (r.compact io).2 with
  | error error =>
    rw [hresult] at h
    exact absurd h (by simp [Except.isOk, Except.toBool])
  | ok _ => rfl

theorem compact_loses_nothing_iff_sample :
    ∃ (r r' : Registry) (es : List Evidence), r.ReachedBy sampleCramped (sampleStrangers [8]) es ∧
      (r.compact .done).2 = .ok () ∧
      r.state.ImageCounts sampleCramped.limits ∧ r.state.WithinVocabulary ∧
      (Registry.open sampleCramped (r.compact .done).1.disk ⟨9, ⟨3, 4⟩, .written⟩).2 = .ok r' ∧
      r'.state = clearVolatile r.state := by
  obtain ⟨r, es, hr, hp⟩ := exists_reached sampleCramped (sampleStrangers [8])
    (fun r _ => (r.compact .done).2.isOk && decide (r.state.ImageCounts sampleCramped.limits) &&
      (r.state.endpointRegistrations.isEmpty && r.state.portCapabilityRecords.isEmpty))
    (by decide +kernel)
  rw [Bool.and_eq_true, Bool.and_eq_true, Bool.and_eq_true, decide_eq_true_iff,
    ExtTreeMap.isEmpty_iff, ExtTreeMap.isEmpty_iff] at hp
  obtain ⟨⟨hok, hcounts⟩, hendpoints, hports⟩ := hp
  have hcompact := compact_eq_ok_of_isOk hok
  have hvocabulary : r.state.WithinVocabulary := by
    refine ⟨?_, ?_⟩
    · rw [hendpoints]
      simp [OrdMap.find₂]
    · rw [hports]
      simp [OrdMap.find₂]
  obtain ⟨r', hopen, hstate⟩ := (compact_loses_nothing_iff hr hcompact ⟨9, ⟨3, 4⟩, .written⟩).mpr
    ⟨hcounts, hvocabulary⟩
  exact ⟨r, r', es, hr, hcompact, hcounts, hvocabulary, hopen, hstate⟩

/-- Two objects that nobody has registered are more than the image of a registry for one object
may hold.  The compaction succeeds, and the log is lost. -/
theorem compact_loses_a_store :
    ∃ (r : Registry) (es : List Evidence), r.ReachedBy sampleCramped (sampleStrangers [8, 9]) es ∧
      (r.compact .done).2 = .ok () ∧
      ∀ env r', (Registry.open sampleCramped (r.compact .done).1.disk env).2 ≠ .ok r' := by
  obtain ⟨r, es, hr, hp⟩ := exists_reached sampleCramped (sampleStrangers [8, 9])
    (fun r _ => (r.compact .done).2.isOk && decide (1 < r.state.lifecycleRecords.size))
    (by decide +kernel)
  rw [Bool.and_eq_true, decide_eq_true_iff] at hp
  have hcompact := compact_eq_ok_of_isOk hp.1
  obtain ⟨hw, hi, hconfig, hoptions, -⟩ := hr.trace
  refine ⟨r, es, hr, hcompact, fun env r' hopen => ?_⟩
  rw [← hoptions] at hopen
  have hcounts := ((hr.housed.1.image_read hw hi hconfig hcompact hopen).1.1).lifecycleRecords.1
  rw [hconfig.limits, hoptions] at hcounts
  have hsize : (clearVolatile r.state).lifecycleRecords.size = r.state.lifecycleRecords.size :=
    size_blurGroups _ _
  rw [hsize] at hcounts
  exact absurd (Nat.lt_of_lt_of_le hp.2 hcounts) (by decide)

end Registry

end CableRegistry
