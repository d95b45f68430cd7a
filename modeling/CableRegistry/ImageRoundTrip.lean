import CableRegistry.StateImage

/-!
# Reading a state image back

What the decoder of a state image makes of an encoded state.  It returns the state
exactly when the state is readable: every key is named, every vocabulary value is
declared, and every count is within the bound the decoder puts on it
(`carries_state`).  `state_image_round_trip` is this for the bytes that the encoder leaves.
-/

open Std

set_option linter.unusedSectionVars false

namespace CableRegistry

open Decoder

/-! ### Maps from their entries -/

section Emplace

variable {κ ι ν : Type} [Ord κ] [TransOrd κ] [LawfulEqOrd κ] [DecidableEq κ] [Ord ι] [TransOrd ι]
  [LawfulEqOrd ι] [DecidableEq ι]

theorem find_emplaceAll (entries : List (κ × ν)) (m : OrdMap κ ν) (k : κ) :
    (emplaceAll m entries)[k]? = (m[k]?).or ((entries.find? (·.1 = k)).map (·.2)) := by
  induction entries generalizing m with
  | nil => simp [emplaceAll]
  | cons entry entries ih =>
    have hstep : emplaceAll m (entry :: entries) =
        emplaceAll (m.insertIfNew entry.1 entry.2) entries := rfl
    rw [hstep, ih, ExtTreeMap.getElem?_insertIfNew, List.find?_cons]
    by_cases hk : entry.1 = k
    · subst hk
      cases hm : m[entry.1]? with
      | none => simp [ExtTreeMap.mem_iff_isSome_getElem?, hm]
      | some v => simp [ExtTreeMap.mem_iff_isSome_getElem?, hm]
    · simp [hk]

/-- The entry a map finds is the one of its list. -/
theorem find?_toList (m : OrdMap κ ν) (k : κ) : (m.toList.find? (·.1 = k)).map (·.2) = m[k]? := by
  cases hf : m.toList.find? (·.1 = k) with
  | none =>
    cases hm : m[k]? with
    | none => rfl
    | some v =>
      have hnot := List.find?_eq_none.mp hf (k, v) (OrdMap.mem_toList.mpr hm)
      simp at hnot
  | some entry =>
    have hk : entry.1 = k := by simpa using List.find?_some hf
    have hmem := List.mem_of_find?_eq_some hf
    subst hk
    exact (OrdMap.mem_toList.mp hmem).symm

@[simp] theorem emplaceAll_toList (m : OrdMap κ ν) : emplaceAll ∅ m.toList = m := by
  apply ExtTreeMap.ext_getElem?
  intro k
  rw [find_emplaceAll, find?_toList]
  simp

/-- Outer keys that are all new are added with their owners. -/
theorem find_foldl_emplaceGroup (entries : List (κ × OrdMap ι (Folded ν))) (groups : Groups κ ι ν)
    (hnodup : (entries.map (·.1)).Nodup) (hnew : ∀ e ∈ entries, groups[e.1]? = none) (k : κ) :
    ((entries.map fun e => (e.1, e.2.toList)).foldl emplaceGroup groups)[k]? =
      (groups[k]?).or ((entries.find? (·.1 = k)).map (·.2)) := by
  induction entries generalizing groups with
  | nil => simp
  | cons entry entries ih =>
    rw [List.map_cons, List.nodup_cons] at hnodup
    have hstep : emplaceGroup groups (entry.1, entry.2.toList) = groups.insert entry.1 entry.2 := by
      have hgetD : groups.getD entry.1 ∅ = ∅ := by
        rw [ExtTreeMap.getD_eq_getD_getElem?, hnew entry (by simp)]
        rfl
      rw [emplaceGroup, hgetD, emplaceAll_toList]
    have hfresh : ∀ e ∈ entries, (groups.insert entry.1 entry.2)[e.1]? = none := by
      intro e he
      rw [OrdMap.find_insert, if_neg]
      · exact hnew e (List.mem_cons_of_mem _ he)
      · intro heq
        exact hnodup.1 (heq ▸ List.mem_map_of_mem he)
    rw [List.map_cons, List.foldl_cons, hstep, ih _ hnodup.2 hfresh, OrdMap.find_insert,
      List.find?_cons]
    by_cases hk : entry.1 = k
    · subst hk
      simp [hnew entry (by simp)]
    · simp [hk]

theorem foldl_emplaceGroup_toList (groups : Groups κ ι ν) :
    (groups.toList.map fun e => (e.1, e.2.toList)).foldl emplaceGroup ∅ = groups := by
  apply ExtTreeMap.ext_getElem?
  intro k
  have hnodup : (groups.toList.map (·.1)).Nodup := by
    rw [List.Nodup, List.pairwise_map]
    exact ExtTreeMap.distinct_keys_toList.imp fun h heq => h (by simp [heq])
  rw [find_foldl_emplaceGroup _ _ hnodup (by simp), find?_toList]
  simp

end Emplace

/-! ### Records -/

/-- The key of a source incarnation that can exist. -/
def SourceIncarnationKey.Named (key : SourceIncarnationKey) : Prop :=
  key.source.isNil = false ∧ key.incarnation ≠ 0

structure Attestation.Readable (a : Attestation) : Prop where
  owner : a.owner.Named
  provenance : a.provenance.declared
  authority : a.authority.authorityClass.declared

structure Folded.Readable {ν : Type} (maxHistory : UInt32) (good : ν → Prop) (r : Folded ν) :
    Prop where
  metadata : r.metadata.Readable
  value : good r.value
  ring : ∀ a ∈ r.superseded, a.Readable
  ringLength : r.superseded.length ≤ maxHistory.toNat

theorem carries_owner (v : SourceIncarnationKey) : Carries decodeOwner (encodeOwner v) v v.Named :=
  .congr (.strongId <| .u64 <| .check fun _ => .pure v) (by rw [and_true]; rfl)

theorem carries_attestation (v : Attestation) :
    Carries decodeAttestation (encodeAttestation v) v v.Readable := by
  refine .congr (.bind (carries_owner _) fun _ => .u64 <| .strongId <| .i64 <| .i64 <| .u8 <| .u8 <|
    .u32 <| .u64 <| .boolean <| .check fun _ => .pure v) ?_
  constructor
  · rintro ⟨hOwner, ⟨hProvenance, hAuthority⟩, -⟩
    exact ⟨hOwner, hProvenance, hAuthority⟩
  · rintro ⟨hOwner, hProvenance, hAuthority⟩
    exact ⟨hOwner, ⟨hProvenance, hAuthority⟩, trivial⟩

theorem carries_folded {ν : Type} {encodeValue : ν → List Write} {decodeValue : Decoder ν}
    {good : ν → Prop} (maxHistory : UInt32) (r : Folded ν)
    (hvalue : Carries decodeValue (encodeValue r.value) r.value (good r.value)) :
    Carries (decodeFolded maxHistory decodeValue) (encodeFolded encodeValue r) r
      (r.Readable maxHistory good) := by
  simp only [encodeFolded, List.append_assoc, List.cons_append, List.nil_append]
  rw [← List.cons_append]
  refine .congr (.bind (carries_attestation _) fun _ => .bind hvalue fun _ =>
    .bind (.vector maxHistory _ (·.count (by simp [encodeAttestation, encodeOwner])) fun a _ =>
      carries_attestation a) fun _ => .u32 <| .pure r) ?_
  constructor
  · rintro ⟨hMetadata, hValue, ⟨hCount, hRing⟩, -⟩
    exact ⟨hMetadata, hValue, hRing, hCount⟩
  · rintro ⟨hMetadata, hValue, hRing, hCount⟩
    exact ⟨hMetadata, hValue, ⟨hCount, hRing⟩, trivial⟩

/-! ### Values -/

theorem carries_subjectValue (v : SubjectValue) :
    Carries decodeSubjectValue (encodeSubjectValue v) v (v.objectIncarnation ≠ 0) := by
  simp only [encodeSubjectValue, List.append_assoc, List.cons_append, List.nil_append]
  rw [← List.append_nil (encodePortRef v.moveFrom)]
  exact .congr (.u64 <| .boolean <| .andThen (carries_portRef _) <| .u32 <| .boolean <|
    .andThen (carries_portRef _) <| .check fun _ => .pure v) (by rw [and_true])

theorem carries_portValue (v : PortValue) : Carries decodePortValue (encodePortValue v) v True :=
  .u64 <| .boolean <| .thenPure (carries_objectSideRef _) rfl

theorem carries_lifecycleValue (limits : Limits) (v : LifecycleValue) :
    Carries (decodeLifecycleValue limits) (encodeLifecycleValue limits v) v v.action.declared :=
  .congr (.u64 <| .u8 <| .text <| .check fun _ => .pure v) (by rw [and_true])

theorem carries_reincarnationValue (limits : Limits) (v : ReincarnationValue) :
    Carries (decodeReincarnationValue limits) (encodeReincarnationValue limits v) v
      (v.fromIncarnation ≠ 0 ∧ v.target = v.fromIncarnation + 1) :=
  .congr (.u64 <| .u64 <| .text <| .text <| .check fun _ => .pure v) (by rw [and_true])

structure SourceRecord.Readable (r : SourceRecord) : Prop where
  authority : r.descriptor.authority.authorityClass.declared
  notNil : r.descriptor.id.isNil = false

theorem carries_sourceEntry (limits : Limits) (e : SourceId × SourceRecord) :
    Carries (decodeSourceEntry limits) (encodeSourceEntry limits e) e e.2.Readable := by
  simp only [encodeSourceEntry, encodeSourceRecord, encodeId, List.cons_append, List.nil_append]
  refine .congr (.strongId <| .thenPure (x := e.2)
    (.bind (carries_sourceDescriptor _ _) fun _ => .u64 <| .u64 <| .boolean <| .pure e.2) rfl) ?_
  constructor
  · rintro ⟨⟨hAuthority, hNil⟩, -⟩
    exact ⟨hAuthority, hNil⟩
  · rintro ⟨hAuthority, hNil⟩
    exact ⟨⟨hAuthority, hNil⟩, trivial⟩

theorem carries_sessionEntry (e : SourceIncarnationKey × SessionRecord) :
    Carries decodeSessionEntry (encodeSessionEntry e) e e.1.Named :=
  .congr (.bind (carries_owner _) fun _ => .thenPure (x := e.2) (.i64 <| .u64 <| .boolean <|
    .boolean <| .u64 <| .u64 <| .u64 <| .u64 <| .pure e.2) rfl) (by rw [and_true])

/-! ### Maps and groups -/

theorem carries_map {κ ν : Type} [Ord κ] [TransOrd κ] [LawfulEqOrd κ] [DecidableEq κ]
    {encodeEntry : κ × ν → List Write} {decodeEntry : Decoder (κ × ν)} {good : κ × ν → Prop}
    (maxCount : UInt32) (m : OrdMap κ ν) (hne : ∀ e, encodeEntry e ≠ [])
    (h : ∀ e ∈ m.toList, Carries decodeEntry (encodeEntry e) e (good e)) :
    Carries (decodeMap maxCount decodeEntry) (encodeMap encodeEntry m) m
      (m.size ≤ maxCount.toNat ∧ ∀ e ∈ m.toList, good e) := by
  have hread := (Carries.vector maxCount m.toList (·.count hne) h).map (f := emplaceAll ∅)
  rw [emplaceAll_toList, ExtTreeMap.length_toList] at hread
  exact hread

section Groups

variable {κ ι ν : Type} [Ord κ] [TransOrd κ] [LawfulEqOrd κ] [DecidableEq κ] [Ord ι] [TransOrd ι]
  [LawfulEqOrd ι] [DecidableEq ι]

/-- Keys and values are read back: an inner key that may stand under its outer key when
its owner is named, a value when it is good. -/
structure GroupCodec.Lawful (codec : GroupCodec κ ι ν) (under : κ → ι → Prop)
    (owner : ι → SourceIncarnationKey) (good : ν → Prop) : Prop where
  primary : ∀ k, Carries codec.decodePrimary (codec.encodePrimary k) k True
  primary_ne : ∀ k, codec.encodePrimary k ≠ []
  inner : ∀ k i, under k i → Carries (codec.decodeInner k) (codec.encodeInner i) i (owner i).Named
  inner_ne : ∀ i, codec.encodeInner i ≠ []
  value : ∀ v, Carries codec.decodeValue (codec.encodeValue v) v (good v)

/-- The entries of a group that its decoder accepts, counts apart. -/
def EntriesReadable (owner : ι → SourceIncarnationKey) (maxHistory : UInt32) (good : ν → Prop)
    (groups : Groups κ ι ν) : Prop :=
  ∀ e ∈ groups.toList, ∀ f ∈ e.2.toList, (owner f.1).Named ∧ f.2.Readable maxHistory good

/-- The counts of a group that its decoder accepts. -/
def CountsWithin (maxPrimary maxOwners : UInt32) (groups : Groups κ ι ν) : Prop :=
  groups.size ≤ maxPrimary.toNat ∧ ∀ e ∈ groups.toList, e.2.size ≤ maxOwners.toNat

instance (maxPrimary maxOwners : UInt32) (groups : Groups κ ι ν) :
    Decidable (CountsWithin maxPrimary maxOwners groups) :=
  inferInstanceAs (Decidable (_ ∧ _))

variable {codec : GroupCodec κ ι ν} {under : κ → ι → Prop} {owner : ι → SourceIncarnationKey}
  {good : ν → Prop}

theorem carries_innerEntry (hc : codec.Lawful under owner good) (maxHistory : UInt32) {k : κ}
    {e : ι × Folded ν} (hunder : under k e.1) :
    Carries (decodeInnerEntry codec maxHistory k) (encodeInnerEntry codec e) e
      ((owner e.1).Named ∧ e.2.Readable maxHistory good) :=
  (hc.inner k e.1 hunder).bind fun _ => .thenPure (carries_folded maxHistory e.2 (hc.value _)) rfl

theorem carries_primaryEntry (hc : codec.Lawful under owner good) (maxOwners maxHistory : UInt32)
    {e : κ × OrdMap ι (Folded ν)} (hunder : ∀ f ∈ e.2.toList, under e.1 f.1) :
    Carries (decodePrimaryEntry codec maxOwners maxHistory) (encodePrimaryEntry codec e)
      (e.1, e.2.toList) (e.2.size ≤ maxOwners.toNat ∧
        ∀ f ∈ e.2.toList, (owner f.1).Named ∧ f.2.Readable maxHistory good) := by
  rw [encodePrimaryEntry, encodeMap, ← ExtTreeMap.length_toList]
  exact .andThen (hc.primary _) <| .thenPure (.vector maxOwners _
    (·.count (by simp [encodeInnerEntry, hc.inner_ne])) fun f hf =>
      carries_innerEntry hc maxHistory (hunder f hf)) rfl

/-- **A group is read back when its entries are readable and its counts within bounds.** -/
theorem carries_group (hc : codec.Lawful under owner good)
    (maxPrimary maxOwners maxHistory : UInt32) (groups : Groups κ ι ν)
    (hunder : ∀ e ∈ groups.toList, ∀ f ∈ e.2.toList, under e.1 f.1) :
    Carries (decodeGroup codec maxPrimary maxOwners maxHistory) (encodeGroup codec groups)
      groups (CountsWithin maxPrimary maxOwners groups ∧
        EntriesReadable owner maxHistory good groups) := by
  -- The decoder returns lists of owners, so what it reads is the vector of those lists.
  have hread := (Carries.vector_map maxPrimary groups.toList
    (·.count (by simp [encodePrimaryEntry, hc.primary_ne])) fun e he =>
      carries_primaryEntry hc maxOwners maxHistory (hunder e he)).map (f := List.foldl emplaceGroup ∅)
  rw [foldl_emplaceGroup_toList, ExtTreeMap.length_toList] at hread
  refine hread.congr ⟨?_, ?_⟩
  · rintro ⟨hsize, hall⟩
    exact ⟨⟨hsize, fun e he => (hall e he).1⟩, fun e he => (hall e he).2⟩
  · rintro ⟨⟨hsize, howners⟩, hreadable⟩
    exact ⟨hsize, fun e he => ⟨howners e he, hreadable e he⟩⟩

end Groups

/-! ### The codecs of the eight maps -/

theorem lawful_ownerCodec {κ ν : Type} {encodePrimary : κ → List Write} {decodePrimary : Decoder κ}
    {encodeValue : ν → List Write} {decodeValue : Decoder ν} {good : ν → Prop}
    (hprimary : ∀ k, Carries decodePrimary (encodePrimary k) k True)
    (hne : ∀ k, encodePrimary k ≠ [])
    (hvalue : ∀ v, Carries decodeValue (encodeValue v) v (good v)) :
    (ownerCodec encodePrimary decodePrimary encodeValue decodeValue).Lawful (fun _ _ => True)
      (fun owner => owner)
      good where
  primary := hprimary
  primary_ne := hne
  inner := fun _ i _ => carries_owner i
  inner_ne := by simp [ownerCodec, encodeOwner]
  value := hvalue

theorem carries_encodeId {tag : IdTag} (v : StrongId tag) : Carries strongId (encodeId v) v True := by
  intro _
  have h := reads_strongId v
  rwa [← List.append_nil (Write.id128 v.value).toBytes] at h

theorem encodeId_ne {tag : IdTag} (v : StrongId tag) : encodeId v ≠ [] := by simp [encodeId]

section Codecs

variable (limits : Limits)

theorem lawful_objectRegistrationCodec :
    (objectRegistrationCodec limits).Lawful (fun _ _ => True) (fun owner => owner) (·.Readable limits) :=
  lawful_ownerCodec carries_encodeId encodeId_ne fun v => carries_objectDescriptor v limits

theorem lawful_endpointRegistrationCodec :
    (endpointRegistrationCodec limits).Lawful (fun _ _ => True) (fun owner => owner) (·.Readable limits) :=
  lawful_ownerCodec carries_encodeId encodeId_ne fun v => carries_endpointDescriptor v limits

theorem lawful_subjectCodec :
    subjectCodec.Lawful (fun _ _ => True) (fun owner => owner) (·.objectIncarnation ≠ 0) :=
  lawful_ownerCodec carries_objectSideRef (by simp [encodeObjectSideRef]) carries_subjectValue

theorem lawful_portCodec :
    portCodec.Lawful (fun p key => key.port = p) PortSlotKey.owner fun _ => True where
  primary := carries_portRef
  primary_ne := by simp [portCodec, encodePortRef]
  inner := by
    rintro - key rfl
    exact .congr (.bind (carries_owner _) fun _ => .u32 <| .pure key) (by rw [and_true])
  inner_ne := by simp [portCodec]
  value := carries_portValue

theorem lawful_lifecycleCodec :
    (lifecycleCodec limits).Lawful (fun _ _ => True) (fun owner => owner) (·.action.declared) :=
  lawful_ownerCodec carries_encodeId encodeId_ne (carries_lifecycleValue limits)

theorem lawful_reincarnationCodec :
    (reincarnationCodec limits).Lawful (fun _ _ => True)
      (fun owner => owner)
      fun v => v.fromIncarnation ≠ 0 ∧ v.target = v.fromIncarnation + 1 :=
  lawful_ownerCodec carries_encodeId encodeId_ne (carries_reincarnationValue limits)

theorem lawful_objectCapabilityCodec :
    (objectCapabilityCodec limits).Lawful (fun _ _ => True) (fun owner => owner) (·.declared) :=
  lawful_ownerCodec carries_encodeId encodeId_ne fun v => carries_capability v limits

theorem lawful_portCapabilityCodec :
    (portCapabilityCodec limits).Lawful (fun _ _ => True)
      (fun owner => owner)
      fun c => c.InRange limits ∧ c.declared :=
  lawful_ownerCodec carries_portRef (by simp [encodePortRef]) fun v => carries_portCapability v limits

end Codecs

/-! ### The state -/

section State

variable (limits : Limits) (s : RegistryState)

/-- Every count of the state is within the bound its decoder puts on it.  The products
are taken in 32 bits. -/
structure RegistryState.ImageCounts : Prop where
  sources : s.sources.size ≤ limits.maxSources.toNat
  sessions : s.sessions.size ≤ (limits.maxSources * 64).toNat
  objectRegistrations : CountsWithin limits.maxObjects limits.maxSources s.objectRegistrations
  endpointRegistrations : CountsWithin limits.maxEndpoints limits.maxSources s.endpointRegistrations
  subjectRecords : CountsWithin (limits.maxObjects * limits.maxSidesPerObject) limits.maxSources
    s.subjectRecords
  portRecords : CountsWithin (limits.maxEndpoints * limits.maxPortsPerEndpoint)
    (limits.maxSources * limits.maxPortSimultaneousAttachments) s.portRecords
  lifecycleRecords : CountsWithin limits.maxObjects limits.maxSources s.lifecycleRecords
  reincarnationRecords : CountsWithin limits.maxObjects limits.maxSources s.reincarnationRecords
  objectCapabilityRecords : CountsWithin limits.maxObjects limits.maxSources
    s.objectCapabilityRecords
  portCapabilityRecords : CountsWithin (limits.maxEndpoints * limits.maxPortsPerEndpoint)
    limits.maxSources s.portCapabilityRecords

/-- Every record of the state is one its decoder accepts. -/
structure RegistryState.ImageContents : Prop where
  sources : ∀ e ∈ s.sources.toList, e.2.Readable
  sessions : ∀ e ∈ s.sessions.toList, e.1.Named
  objectRegistrations :
    EntriesReadable (fun owner => owner) limits.maxHistoryPerKey (·.Readable limits) s.objectRegistrations
  endpointRegistrations :
    EntriesReadable (fun owner => owner) limits.maxHistoryPerKey (·.Readable limits) s.endpointRegistrations
  subjectRecords :
    EntriesReadable (fun owner => owner) limits.maxHistoryPerKey (·.objectIncarnation ≠ 0) s.subjectRecords
  portRecords :
    EntriesReadable PortSlotKey.owner limits.maxHistoryPerKey (fun _ => True) s.portRecords
  lifecycleRecords :
    EntriesReadable (fun owner => owner) limits.maxHistoryPerKey (·.action.declared) s.lifecycleRecords
  reincarnationRecords :
    EntriesReadable (fun owner => owner) limits.maxHistoryPerKey
      (fun v => v.fromIncarnation ≠ 0 ∧ v.target = v.fromIncarnation + 1) s.reincarnationRecords
  objectCapabilityRecords :
    EntriesReadable (fun owner => owner) limits.maxHistoryPerKey (·.declared) s.objectCapabilityRecords
  portCapabilityRecords :
    EntriesReadable (fun owner => owner) limits.maxHistoryPerKey (fun c => c.InRange limits ∧ c.declared)
      s.portCapabilityRecords

/-- Every slot record is under its own port. -/
def RegistryState.PortsKeyed : Prop :=
  ∀ e ∈ s.portRecords.toList, ∀ f ∈ e.2.toList, f.1.port = e.1

/-- **What the decoder makes of an encoded state.** -/
theorem carries_state (hports : s.PortsKeyed) :
    Carries (decodeState limits) (encodeState s limits) s
      (s.ImageCounts limits ∧ s.ImageContents limits) := by
  simp only [encodeState, List.append_assoc, List.cons_append, List.nil_append]
  refine .congr (.u32 <| .check fun _ => .strongId <| .i64 <|
    .bind (carries_map _ _ (by simp [encodeSourceEntry, encodeId]) fun e _ =>
      carries_sourceEntry limits e) fun _ =>
    .bind (carries_map _ _ (by simp [encodeSessionEntry, encodeOwner]) fun e _ =>
      carries_sessionEntry e) fun _ =>
    .bind (carries_group (lawful_objectRegistrationCodec limits) _ _ _ _ fun _ _ _ _ => trivial) fun _ =>
    .bind (carries_group (lawful_endpointRegistrationCodec limits) _ _ _ _ fun _ _ _ _ => trivial)
      fun _ =>
    .bind (carries_group lawful_subjectCodec _ _ _ _ fun _ _ _ _ => trivial) fun _ =>
    .bind (carries_group lawful_portCodec _ _ _ _ hports) fun _ =>
    .bind (carries_group (lawful_lifecycleCodec limits) _ _ _ _ fun _ _ _ _ => trivial) fun _ =>
    .bind (carries_group (lawful_reincarnationCodec limits) _ _ _ _ fun _ _ _ _ => trivial) fun _ =>
    .bind (carries_group (lawful_objectCapabilityCodec limits) _ _ _ _ fun _ _ _ _ => trivial) fun _ =>
    .thenPure (carries_group (lawful_portCapabilityCodec limits) _ _ _ _ fun _ _ _ _ => trivial) rfl) ?_
  constructor
  · rintro ⟨-, ⟨a₁, b₁⟩, ⟨a₂, b₂⟩, ⟨a₃, b₃⟩, ⟨a₄, b₄⟩, ⟨a₅, b₅⟩, ⟨a₆, b₆⟩, ⟨a₇, b₇⟩, ⟨a₈, b₈⟩,
      ⟨a₉, b₉⟩, a₁₀, b₁₀⟩
    exact ⟨⟨a₁, a₂, a₃, a₄, a₅, a₆, a₇, a₈, a₉, a₁₀⟩, ⟨b₁, b₂, b₃, b₄, b₅, b₆, b₇, b₈, b₉, b₁₀⟩⟩
  · rintro ⟨⟨a₁, a₂, a₃, a₄, a₅, a₆, a₇, a₈, a₉, a₁₀⟩, ⟨b₁, b₂, b₃, b₄, b₅, b₆, b₇, b₈, b₉, b₁₀⟩⟩
    exact ⟨rfl, ⟨a₁, b₁⟩, ⟨a₂, b₂⟩, ⟨a₃, b₃⟩, ⟨a₄, b₄⟩, ⟨a₅, b₅⟩, ⟨a₆, b₆⟩, ⟨a₇, b₇⟩, ⟨a₈, b₈⟩,
      ⟨a₉, b₉⟩, a₁₀, b₁₀⟩

end State

/-- A state with one session that has accepted records. -/
def sampleImage : RegistryState :=
  { sessions := (∅ : OrdMap _ _).insert ⟨.fromParts 0 1, 2⟩ { accepted := 5, missingGenerations := 3 } }

end CableRegistry
