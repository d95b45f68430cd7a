import CableRegistry.Blurring
import CableRegistry.Steps

/-!
# The durable core of a state

Two registries that differ only in lifetime flags, in the contents of sessions, in
their identity and in the time they were opened take the same decisions.  `core` forgets
those; whether a record is accepted depends on nothing else (`isAccepted_decideEvidence_core`), and
an accepted record does the same to the cores (`core_accept`).

A record is accepted if no claim of it collides with the winner of its key and every claim that
is new finds room (`isAccepted_decideEvidence_iff`).

A label index may hold more than the registrations say, because it only grows.  What it
must not do is hold less: `LabelIndex.Covers`.  Then what it finds does not depend on it
(`conflict_iff`).
-/

open Std

set_option linter.unusedSectionVars false

namespace CableRegistry

/-! ### Blurring and folding -/

section Fold

variable {κ ι ν : Type} [Ord κ] [TransOrd κ] [LawfulEqOrd κ] [DecidableEq κ] [Ord ι] [TransOrd ι]
  [LawfulEqOrd ι] [DecidableEq ι] (b : Blur)

theorem blurOwners_insert (owners : OrdMap ι (Folded ν)) (i : ι) (r : Folded ν) :
    blurOwners b (owners.insert i r) = (blurOwners b owners).insert i (r.blur b) := by
  apply ExtTreeMap.ext_getElem?
  intro i'
  simp only [find_blurOwners, OrdMap.find_insert]
  split <;> rfl

theorem blurGroups_insert (groups : Groups κ ι ν) (k : κ) (owners : OrdMap ι (Folded ν)) :
    blurGroups b (groups.insert k owners) = (blurGroups b groups).insert k (blurOwners b owners) := by
  apply ExtTreeMap.ext_getElem?
  intro k'
  simp only [find_blurGroups, OrdMap.find_insert]
  split <;> rfl

variable (historyPerKey : UInt32) (m : Attestation)

theorem any_evidence_blur (l : List Attestation) (id : EvidenceId) :
    (l.map (Attestation.blur b)).any (·.evidence == id) = l.any (·.evidence == id) := by
  rw [List.any_map]
  rfl

section

variable (hb : b.dropped = id)

include hb

/-- A blur that keeps drop counts commutes with settling a ring. -/
theorem settleRing_blur (ring : List Attestation) (r : Folded ν) :
    (r.settleRing historyPerKey ring).blur b =
      (r.blur b).settleRing historyPerKey (ring.map (Attestation.blur b)) := by
  have hsort : sortBy ringOrder (ring.map (Attestation.blur b)) =
      (sortBy ringOrder ring).map (Attestation.blur b) :=
    sortBy_map _ _ fun _ _ _ _ => rfl
  simp only [Folded.settleRing, Folded.blur, hsort, hb, List.length_map, List.map_drop]
  rfl

theorem win_blur (v : ν) (r : Folded ν) :
    (r.win historyPerKey m v).blur b = (r.blur b).win historyPerKey (m.blur b) v := by
  have hany : (r.blur b).superseded.any (·.evidence == (r.blur b).metadata.evidence) =
      r.superseded.any (·.evidence == r.metadata.evidence) :=
    any_evidence_blur b r.superseded r.metadata.evidence
  unfold Folded.win
  rw [hany]
  by_cases h : r.superseded.any (·.evidence == r.metadata.evidence) = true
  · simp only [h, if_true]
    have hring := settleRing_blur b historyPerKey hb r.superseded r
    simp only [Folded.blur] at hring ⊢
    rw [← hring]
  · simp only [h, Bool.false_eq_true, if_false]
    have hring := settleRing_blur b historyPerKey hb (r.superseded ++ [r.metadata]) r
    simp only [Folded.blur, List.map_append, List.map_cons, List.map_nil] at hring ⊢
    rw [← hring]

theorem lose_blur (r : Folded ν) :
    (r.lose historyPerKey m).blur b = (r.blur b).lose historyPerKey (m.blur b) := by
  have hany : (r.blur b).superseded.any (·.evidence == (m.blur b).evidence) =
      r.superseded.any (·.evidence == m.evidence) := any_evidence_blur b r.superseded m.evidence
  unfold Folded.lose
  rw [hany]
  have hid : ((r.blur b).metadata.evidence == (m.blur b).evidence) =
      (r.metadata.evidence == m.evidence) := rfl
  rw [hid]
  split
  · rfl
  split
  · rfl
  · rw [settleRing_blur b historyPerKey hb, List.map_append]
    rfl

theorem foldGroup_blur (groups : Groups κ ι ν) (k : κ) (i : ι) (v : ν) :
    blurGroups b (foldGroup historyPerKey groups k i m v) =
      foldGroup historyPerKey (blurGroups b groups) k i (m.blur b) v := by
  have hgetD : (blurGroups b groups).getD k ∅ = blurOwners b (groups.getD k ∅) := by
    rw [ExtTreeMap.getD_eq_getD_getElem?, ExtTreeMap.getD_eq_getD_getElem?, find_blurGroups]
    cases groups[k]? with
    | none =>
      apply ExtTreeMap.ext_getElem?
      intro i'
      simp
    | some owners => rfl
  rw [foldGroup, foldGroup, blurGroups_insert, hgetD]
  congr 1
  unfold fold
  rw [find_blurOwners]
  cases (groups.getD k ∅)[i]? with
  | none =>
    dsimp only [Option.map_none]
    rw [blurOwners_insert]
    simp only [Folded.blur, hb, List.map_nil, id]
  | some r =>
    dsimp only [Option.map_some]
    rw [blurOwners_insert, win_blur b historyPerKey m hb]

theorem foldLosingGroup_blur (groups : Groups κ ι ν) (k : κ) (i : ι) :
    blurGroups b (foldLosingGroup historyPerKey groups k i m) =
      foldLosingGroup historyPerKey (blurGroups b groups) k i (m.blur b) := by
  unfold foldLosingGroup
  rw [find_blurGroups]
  cases groups[k]? with
  | none => rfl
  | some owners =>
    dsimp only [Option.map_some]
    rw [blurGroups_insert]
    congr 1
    unfold foldLosing
    rw [find_blurOwners]
    cases owners[i]? with
    | none => rfl
    | some r =>
      dsimp only [Option.map_some]
      rw [blurOwners_insert, lose_blur b historyPerKey m hb]

theorem applyWrite_blur (s : RegistryState) (u : ClaimUpdate) :
    (applyWrite historyPerKey m s u).blur b =
      applyWrite historyPerKey (m.blur b) (s.blur b) u := by
  cases u <;> simp only [applyWrite, RegistryState.blur, foldGroup_blur b historyPerKey m hb] <;> rfl

theorem applyRing_blur (s : RegistryState) (u : ClaimUpdate) :
    (applyRing historyPerKey m s u).blur b =
      applyRing historyPerKey (m.blur b) (s.blur b) u := by
  cases u <;> simp only [applyRing, RegistryState.blur, foldLosingGroup_blur b historyPerKey m hb] <;>
    rfl

end

theorem foldl_blur {f g : RegistryState → ClaimUpdate → RegistryState}
    (h : ∀ s u, (f s u).blur b = g (s.blur b) u) (us : List ClaimUpdate) (s : RegistryState) :
    (us.foldl f s).blur b = us.foldl g (s.blur b) := by
  induction us generalizing s with
  | nil => rfl
  | cons u us ih => rw [List.foldl_cons, ih, h, List.foldl_cons]

/-- **Applying a change commutes with a blur** that keeps drop counts. -/
theorem applyChange_blur (hb : b.dropped = id) (s : RegistryState) (change : StagedChange) :
    (applyChange historyPerKey s change).blur b =
      applyChange historyPerKey (s.blur b) { change with metadata := change.metadata.blur b } := by
  unfold applyChange
  rw [foldl_blur b (applyWrite_blur b historyPerKey change.metadata hb),
    foldl_blur b (applyRing_blur b historyPerKey change.metadata hb)]

end Fold

/-! ### Blurring and deciding -/

section Decide

variable (b : Blur) (limits : Limits) (s : RegistryState)

theorem contains_blurGroups {κ ι ν : Type} [Ord κ] [TransOrd κ] [Ord ι] [TransOrd ι]
    (groups : Groups κ ι ν) (k : κ) : (blurGroups b groups).contains k = groups.contains k := by
  rw [ExtTreeMap.contains_eq_isSome_getElem?, ExtTreeMap.contains_eq_isSome_getElem?,
    find_blurGroups, Option.isSome_map]

theorem holdsLiveLabel_blur (label : Text) (object holder : ObjectId) :
    holdsLiveLabel (s.blur b) label object holder = holdsLiveLabel s label object holder := by
  have hr : (s.blur b).objectRegistrations = blurGroups b s.objectRegistrations := rfl
  unfold holdsLiveLabel
  rw [lifecycleActionOf_blur, hr, find_blurGroups]
  cases s.objectRegistrations[holder]? with
  | none => rfl
  | some owners =>
    dsimp only [Option.map_some]
    rw [toList_blurOwners', List.any_map]
    rfl

theorem portCapacityReached_blur (key : PortSlotKey) :
    portCapacityReached limits (s.blur b) key = portCapacityReached limits s key := by
  have hr : (s.blur b).portRecords = blurGroups b s.portRecords := rfl
  unfold portCapacityReached
  rw [hr, find_blurGroups]
  cases s.portRecords[key.port]? with
  | none => rfl
  | some slots =>
    dsimp only [Option.map_some]
    rw [size_blurOwners, ExtTreeMap.contains_eq_isSome_getElem?,
      ExtTreeMap.contains_eq_isSome_getElem?, find_blurOwners, Option.isSome_map]

end Decide

/-! ### Label indexes -/

variable {object : ObjectId} {index : Option LabelIndex} {s : RegistryState} {label : Text}

namespace LabelIndex

/-- Every object that registered a label is among the holders of the label. -/
def Covers (index : LabelIndex) (s : RegistryState) : Prop :=
  ∀ object owner r, OrdMap.find₂ s.objectRegistrations object owner = some r →
    r.value.physicalLabel ≠ [] → object ∈ index.holders r.value.physicalLabel

theorem mem_holders {index : LabelIndex} :
    object ∈ index.holders label ↔ ∃ set, index[label]? = some set ∧ object ∈ set := by
  unfold holders
  cases index[label]? with
  | none => simp
  | some set => simp

theorem mem_holders_add {index : LabelIndex} {label' : Text} {object' : ObjectId} :
    object ∈ (index.add label' object').holders label ↔
      object ∈ index.holders label ∨ (label' ≠ [] ∧ label' = label ∧ object' = object) := by
  unfold add
  cases hl : label' with
  | nil => simp
  | cons c rest =>
    rw [← hl]
    have hne : label' ≠ [] := by simp [hl]
    have hisEmpty : label'.isEmpty = false := by simp [hl]
    simp only [hisEmpty, Bool.false_eq_true, if_false, mem_holders, OrdMap.find_insert]
    by_cases he : label' = label
    · subst he
      simp only [if_true, Option.some.injEq, exists_eq_left', ExtTreeSet.mem_insert,
        OrdMap.compare_eq_iff, ExtTreeMap.getD_eq_getD_getElem?]
      cases hi : index[label']? with
      | none => simp [hne]
      | some set => simp [hne, or_comm]
    · simp [he]

/-- Adding labels one after the other keeps what is there. -/
theorem mem_holders_foldl {α : Type} (label : α → Text) (object : α → ObjectId) (l : List α)
    (index : LabelIndex) {t : Text} {o : ObjectId} :
    o ∈ (l.foldl (fun index a => index.add (label a) (object a)) index).holders t ↔
      o ∈ index.holders t ∨ ∃ a ∈ l, label a ≠ [] ∧ label a = t ∧ object a = o := by
  induction l generalizing index with
  | nil => simp
  | cons a l ih =>
    rw [List.foldl_cons, ih, mem_holders_add]
    simp only [List.mem_cons, exists_eq_or_imp, or_assoc]

/-- **A rebuilt index covers the registrations.** -/
theorem covers_rebuild (s : RegistryState) : (rebuild s).Covers s := by
  intro object owner r hr hlabel
  have hflat : rebuild s = (s.objectRegistrations.toList.flatMap fun entry =>
      entry.2.toList.map fun o => (entry.1, o.2.value.physicalLabel)).foldl
        (fun index a => index.add a.2 a.1) ∅ := by
    rw [List.foldl_flatMap]
    simp only [List.foldl_map]
    rfl
  rw [hflat, mem_holders_foldl Prod.snd Prod.fst]
  simp only [OrdMap.find₂, Option.bind_eq_some_iff] at hr
  obtain ⟨owners, ho, hr⟩ := hr
  refine .inr ⟨(object, r.value.physicalLabel), ?_, hlabel, rfl, rfl⟩
  simp only [List.mem_flatMap, List.mem_map]
  exact ⟨(object, owners), OrdMap.mem_toList.mpr ho, (owner, r), OrdMap.mem_toList.mpr hr, rfl⟩

section Apply

variable {index : LabelIndex} {s : RegistryState} (historyPerKey : UInt32) (m : Attestation)

theorem Covers.applyRing (h : index.Covers s) (u : ClaimUpdate) :
    index.Covers (CableRegistry.applyRing historyPerKey m s u) := by
  cases u with
  | objectRegistration object' v =>
    intro object owner r hr hlabel
    simp only [CableRegistry.applyRing, find₂_foldLosingGroup] at hr
    split at hr
    · rename_i hk
      obtain ⟨rfl, rfl⟩ := hk
      obtain ⟨r₀, hr₀, rfl⟩ := Option.map_eq_some_iff.mp hr
      have hv : (r₀.lose historyPerKey m).value = r₀.value := by
        unfold Folded.lose
        split
        · rfl
        split <;> rfl
      rw [hv] at hlabel ⊢
      exact h _ _ _ hr₀ hlabel
    · exact h _ _ _ hr hlabel
  | _ => exact h

theorem Covers.applyWrite (h : index.Covers s) (u : ClaimUpdate) :
    Covers (match u with
      | .objectRegistration object value => index.add value.physicalLabel object
      | _ => index) (CableRegistry.applyWrite historyPerKey m s u) := by
  cases u with
  | objectRegistration object' v =>
    intro object owner r hr hlabel
    simp only [CableRegistry.applyWrite, find₂_foldGroup] at hr
    rw [mem_holders_add]
    split at hr
    · rename_i hk
      obtain ⟨rfl, rfl⟩ := hk
      have hv : r.value = v := by
        rw [← Option.some.inj hr]
        cases OrdMap.find₂ s.objectRegistrations object' m.owner <;> rfl
      rw [hv] at hlabel ⊢
      exact .inr ⟨hlabel, rfl, rfl⟩
    · exact .inl (h _ _ _ hr hlabel)
  | _ => exact h

/-- **An index that follows the writes keeps covering the registrations.** -/
theorem Covers.applyChange (h : index.Covers s) (change : StagedChange) :
    (index.applyChange change).Covers (CableRegistry.applyChange historyPerKey s change) := by
  have hrings : ∀ (us : List ClaimUpdate) (s : RegistryState), index.Covers s →
      index.Covers (us.foldl (CableRegistry.applyRing historyPerKey change.metadata) s) := by
    intro us
    induction us with
    | nil => exact fun s hs => hs
    | cons u us ih => exact fun s hs => ih _ (hs.applyRing historyPerKey change.metadata u)
  have hwrites : ∀ (us : List ClaimUpdate) (s : RegistryState) (index : LabelIndex),
      index.Covers s → Covers (us.foldl (fun index update =>
        match update with
        | .objectRegistration object value => index.add value.physicalLabel object
        | _ => index) index)
        (us.foldl (CableRegistry.applyWrite historyPerKey change.metadata) s) := by
    intro us
    induction us with
    | nil => exact fun s index hs => hs
    | cons u us ih => exact fun s index hs => ih _ _ (hs.applyWrite historyPerKey change.metadata u)
  exact hwrites _ _ _ (hrings _ _ h)

end Apply

end LabelIndex

/-- The index, if there is one, covers the registrations. -/
def CoveredBy (s : RegistryState) (index : Option LabelIndex) : Prop :=
  ∀ i, index = some i → i.Covers s

theorem covers_getD (h : CoveredBy s index) :
    (index.getD (LabelIndex.rebuild s)).Covers s := by
  cases index with
  | none => exact LabelIndex.covers_rebuild s
  | some i => exact h i rfl

/-- An index that covers the registrations lists every live holder of a label. -/
theorem mem_holders_of_holdsLiveLabel {index : LabelIndex} (h : index.Covers s)
    (hlabel : label ≠ []) {holder : ObjectId} (hh : holdsLiveLabel s label object holder = true) :
    holder ∈ index.holders label := by
  simp only [holdsLiveLabel, Bool.and_eq_true] at hh
  obtain ⟨⟨-, hreg⟩, -⟩ := hh
  cases ho : s.objectRegistrations[holder]? with
  | none => simp [ho] at hreg
  | some owners =>
    simp only [ho, List.any_eq_true, beq_iff_eq] at hreg
    obtain ⟨⟨owner, r⟩, hmem, heq⟩ := hreg
    have hfind : OrdMap.find₂ s.objectRegistrations holder owner = some r := by
      simp only [OrdMap.find₂, ho, Option.bind_some]
      exact OrdMap.mem_toList.mp hmem
    have := h holder owner r hfind (by rw [heq]; exact hlabel)
    rwa [heq] at this

/-- **Whether an index finds a live holder of a label does not depend on the index.** -/
theorem find?_holders_isSome {index : LabelIndex} (h : index.Covers s) (hlabel : label ≠ [])
    (object : ObjectId) :
    ((index.holders label).find? (holdsLiveLabel s label object)).isSome = true ↔
      ∃ holder, holdsLiveLabel s label object holder = true := by
  rw [List.find?_isSome]
  constructor
  · rintro ⟨holder, -, hh⟩
    exact ⟨holder, hh⟩
  · rintro ⟨holder, hh⟩
    exact ⟨holder, mem_holders_of_holdsLiveLabel h hlabel hh, hh⟩

/-! ### When a record is accepted -/

/-- A claim that is new finds room: nobody else has the label, and there are not too many objects,
endpoints or claims about the port. -/
def HasRoom (limits : Limits) (s : RegistryState) : ClaimUpdate → Prop
  | .objectRegistration object value =>
    (value.physicalLabel ≠ [] → ∀ holder, holdsLiveLabel s value.physicalLabel object holder = false) ∧
      (s.objectRegistrations.contains object = true ∨
        s.objectRegistrations.size < limits.maxObjects.toNat)
  | .endpointRegistration endpoint _ =>
    s.endpointRegistrations.contains endpoint = true ∨
      s.endpointRegistrations.size < limits.maxEndpoints.toNat
  | .port key _ => portCapacityReached limits s key = false
  | _ => True

section Accepted

variable {limits : Limits} {s : RegistryState} {index : Option LabelIndex} {m : Attestation}
  {u : ClaimUpdate}

theorem isAccepted_decideSingle {o : GenerationOutcome} {texts : ClaimTexts} {insert : Decision} :
    (decideSingle index m o u texts insert).disposition.isAccepted = true ↔
      o ≠ .collision ∧ (o = .insert → insert.disposition.isAccepted = true) := by
  cases o <;> simp [decideSingle, settled, stageRing, IngestDisposition.isAccepted]

theorem isAccepted_stageWrite {base : IngestDisposition} (a b : Bool) (h : base.isAccepted = true) :
    (stageWrite s index m u base a b).disposition.isAccepted = true :=
  isAccepted_effectiveDisposition base _ a b h

/-- A port that is full has no claim of the key. -/
theorem claimOutcome_of_portCapacityReached {key : PortSlotKey} {value : PortValue}
    (h : portCapacityReached limits s key = true) : claimOutcome s m (.port key value) = .insert := by
  have hnone : OrdMap.find₂ s.portRecords key.port key = none := by
    unfold portCapacityReached at h
    unfold OrdMap.find₂
    cases hslots : s.portRecords[key.port]? with
    | none => rfl
    | some slots =>
      rw [hslots] at h
      simp only [Bool.and_eq_true, Bool.not_eq_true', ExtTreeMap.contains_eq_isSome_getElem?,
        Option.isSome_eq_false_iff, Option.isNone_iff_eq_none] at h
      exact h.1
  unfold claimOutcome
  rw [show (ClaimUpdate.port key value).key m.owner = .port key from rfl, RegistryState.lookup, hnone]
  rfl

theorem isAccepted_decidePosition_iff (claim : PositionClaim) :
    (decidePosition limits s index m claim).disposition.isAccepted = true ↔
      ∀ u ∈ claim.claims, claimOutcome s m u ≠ .collision ∧
        (claimOutcome s m u = .insert → HasRoom limits s u) := by
  have houtcome : ∀ u ∈ claim.claims, positionOutcome s m u = claimOutcome s m u :=
    fun u hu => positionOutcome_eq_claimOutcome claim hu
  unfold decidePosition
  split
  · rename_i hfull
    obtain ⟨update, hmem, hfull⟩ := List.any_eq_true.mp hfull
    refine iff_of_false (by simp [settled, IngestDisposition.isAccepted]) fun h => ?_
    have hroom := (h (.port update.1 update.2) (List.mem_cons_of_mem _
      (List.mem_map.mpr ⟨update, hmem, rfl⟩))).2 (claimOutcome_of_portCapacityReached hfull)
    rw [show portCapacityReached limits s update.1 = false from hroom] at hfull
    exact absurd hfull (by simp)
  rename_i hfull
  split
  · rename_i hcollides
    obtain ⟨u, hu, hcollides⟩ := List.any_eq_true.mp hcollides
    refine iff_of_false (by simp [settled, IngestDisposition.isAccepted]) fun h => ?_
    rw [houtcome u hu, beq_iff_eq] at hcollides
    exact (h u hu).1 hcollides
  rename_i hcollides
  refine iff_of_true ?_ fun u hu => ⟨fun hcollision => hcollides ?_, fun _ => ?_⟩
  · dsimp only
    split
    · rfl
    split
    · rfl
    · refine isAccepted_effectiveDisposition _ _ _ _ ?_
      split <;> rfl
  · exact List.any_eq_true.mpr ⟨u, hu, by rw [houtcome u hu, hcollision]; rfl⟩
  · simp only [PositionClaim.claims, List.mem_cons, List.mem_map] at hu
    rcases hu with rfl | ⟨update, hmem, rfl⟩
    · trivial
    · exact Bool.eq_false_of_not_eq_true fun hreached =>
        hfull (List.any_eq_true.mpr ⟨update, hmem, hreached⟩)

theorem capacity_iff {known : Bool} {size bound : Nat} :
    (!known && decide (size ≥ bound)) = false ↔ known = true ∨ size < bound := by
  cases known <;> simp

/-- What is left to check of a new object. -/
theorem isAccepted_registerObject_iff (h : CoveredBy s index) (d : ObjectDescriptor) :
    (decideRegisterObject limits s index m d).disposition.isAccepted = true ↔
      claimOutcome s m (.objectRegistration d.id d) ≠ .collision ∧
        (claimOutcome s m (.objectRegistration d.id d) = .insert →
          HasRoom limits s (.objectRegistration d.id d)) := by
  unfold decideRegisterObject
  rw [isAccepted_decideSingle, existingOutcome_objectRegistration]
  refine and_congr_right fun _ => imp_congr_right fun _ => ?_
  have hlabel : ((if (!d.physicalLabel.isEmpty) = true then
      ((index.getD (LabelIndex.rebuild s)).holders d.physicalLabel).find?
        (holdsLiveLabel s d.physicalLabel d.id) else none) = none) ↔
      (d.physicalLabel ≠ [] → ∀ holder, holdsLiveLabel s d.physicalLabel d.id holder = false) := by
    by_cases hl : d.physicalLabel = []
    · simp [hl]
    · have hne : (!d.physicalLabel.isEmpty) = true := by simpa using hl
      have hfound := find?_holders_isSome (covers_getD h) hl d.id
      rw [if_pos hne, ← Option.not_isSome_iff_eq_none, hfound]
      simp [hl]
  unfold HasRoom
  dsimp only
  rw [← hlabel, ← capacity_iff]
  split
  · rename_i holder hfound
    rw [hfound]
    simp [settled, IngestDisposition.isAccepted]
  · rename_i hnone
    rw [hnone]
    split
    · rename_i hfull
      rw [hfull]
      simp [settled, IngestDisposition.isAccepted]
    · rename_i hroom
      exact iff_of_true (isAccepted_stageWrite _ _ rfl) ⟨rfl, Bool.eq_false_of_not_eq_true hroom⟩

theorem isAccepted_registerEndpoint_iff (d : EndpointDescriptor) :
    (decideRegisterEndpoint limits s index m d).disposition.isAccepted = true ↔
      claimOutcome s m (.endpointRegistration d.id d) ≠ .collision ∧
        (claimOutcome s m (.endpointRegistration d.id d) = .insert →
          HasRoom limits s (.endpointRegistration d.id d)) := by
  unfold decideRegisterEndpoint
  rw [isAccepted_decideSingle, existingOutcome_endpointRegistration]
  refine and_congr_right fun _ => imp_congr_right fun _ => ?_
  unfold HasRoom
  dsimp only
  rw [← capacity_iff]
  split
  · rename_i hfull
    rw [hfull]
    simp [settled, IngestDisposition.isAccepted]
  · rename_i hroom
    exact iff_of_true (isAccepted_stageWrite _ _ rfl) (Bool.eq_false_of_not_eq_true hroom)

/-- **A record is accepted if no claim of it collides and every claim that is new finds room.** -/
theorem isAccepted_decideEvidence_iff (h : CoveredBy s index) (payload : EvidencePayload) :
    (decideEvidence limits s index m payload).disposition.isAccepted = true ↔
      ∀ u ∈ claimsOf m.owner payload, claimOutcome s m u ≠ .collision ∧
        (claimOutcome s m u = .insert → HasRoom limits s u) := by
  have hreference : ∀ (u : ClaimUpdate) (known a b : Bool),
      (stageWrite s index m u (referenceBase known) a b).disposition.isAccepted = true :=
    fun _ known a b => isAccepted_stageWrite a b (isAccepted_referenceBase known)
  cases payload with
  | attach p => exact isAccepted_decidePosition_iff _
  | detach p => exact isAccepted_decidePosition_iff _
  | move p => exact isAccepted_decidePosition_iff _
  | registerObject p =>
    simp only [claimsOf, List.mem_singleton, forall_eq]
    exact isAccepted_registerObject_iff h p.descriptor
  | registerEndpoint p =>
    simp only [claimsOf, List.mem_singleton, forall_eq]
    exact isAccepted_registerEndpoint_iff p.descriptor
  | publishObjectCapability p =>
    simp only [decideEvidence, decidePublishObjectCapability, isAccepted_decideSingle,
      existingOutcome_objectCapability, hreference, claimsOf, List.mem_singleton, forall_eq, HasRoom]
  | publishPortCapability p =>
    simp only [decideEvidence, decidePublishPortCapability, isAccepted_decideSingle,
      existingOutcome_portCapability, hreference, claimsOf, List.mem_singleton, forall_eq, HasRoom]
  | setLifecycle p =>
    have ho := @existingOutcome_lifecycle s m p.object ⟨p.objectIncarnation, p.action, p.reason⟩
    simp only [decideEvidence, decideSetLifecycle, isAccepted_decideSingle, hreference, claimsOf,
      List.mem_singleton, forall_eq, HasRoom]
    rw [ho]
  | reincarnateObject p =>
    have ho := @existingOutcome_reincarnation s m p.object (reincarnationValue p)
    simp only [decideEvidence, decideReincarnateObject, isAccepted_decideSingle, claimsOf,
      List.mem_singleton, forall_eq, HasRoom]
    rw [ho]
    refine and_congr_right fun _ => imp_congr_right fun _ => iff_of_true ?_ trivial
    split
    · exact isAccepted_stageWrite _ _ rfl
    split
    · rfl
    · exact isAccepted_stageWrite _ _ rfl

end Accepted

/-! ### Accepting -/

section Accept

variable (b : Blur) (historyPerKey : UInt32) (s : RegistryState) (m : Attestation) (e : Evidence)

theorem slotOutcome_blur {ν : Type} (slot : Option (Folded ν)) (same : ν → Bool) :
    slotOutcome (slot.map (Folded.blur b)) (m.blur b) same = slotOutcome slot m same := by
  cases slot <;> rfl

theorem claimOutcome_blur (u : ClaimUpdate) :
    claimOutcome (s.blur b) (m.blur b) u = claimOutcome s m u := by
  unfold claimOutcome
  rw [lookup_blur, slotOutcome_blur]
  rfl

theorem hasRoom_blur (limits : Limits) (u : ClaimUpdate) :
    HasRoom limits (s.blur b) u ↔ HasRoom limits s u := by
  have ho : (s.blur b).objectRegistrations = blurGroups b s.objectRegistrations := rfl
  have he : (s.blur b).endpointRegistrations = blurGroups b s.endpointRegistrations := rfl
  cases u <;> simp only [HasRoom, holdsLiveLabel_blur, portCapacityReached_blur, ho, he,
    contains_blurGroups, size_blurGroups]

theorem resolvedOutcome_blur (u : ClaimUpdate) :
    resolvedOutcome (s.blur b) (m.blur b) u = resolvedOutcome s m u := by
  have ht : targetReached (s.blur b) u = targetReached s u := by
    cases u <;> simp only [targetReached, objectExists_blur, objectIncarnationOf_blur]
  simp only [resolvedOutcome, claimOutcome_blur, ht]

/-- **Accepting a record commutes with a blur** that keeps drop counts. -/
theorem accept_blur (hb : b.dropped = id) :
    (Registry.accept historyPerKey s m e).blur b =
      Registry.accept historyPerKey (s.blur b) (m.blur b) e := by
  have hout : resolvedOutcome (s.blur b) (m.blur b) = resolvedOutcome s m :=
    funext (resolvedOutcome_blur b s m)
  unfold Registry.accept
  rw [applyChange_blur b historyPerKey hb, hout]
  rfl

variable (id : RegistryId) (openedAt : Timestamp) (sessions : OrdMap SourceIncarnationKey SessionRecord)

/-- A state with another identity, another opening time and other sessions. -/
def RegistryState.reframe : RegistryState :=
  { s with id := id, openedAt := openedAt, sessions := sessions }

theorem applyChange_reframe (change : StagedChange) :
    applyChange historyPerKey (s.reframe id openedAt sessions) change =
      (applyChange historyPerKey s change).reframe id openedAt sessions := by
  have hfold : ∀ {f : RegistryState → ClaimUpdate → RegistryState}
      (_ : ∀ s u, f (s.reframe id openedAt sessions) u = (f s u).reframe id openedAt sessions)
      (us : List ClaimUpdate) (s : RegistryState),
      us.foldl f (s.reframe id openedAt sessions) =
        (us.foldl f s).reframe id openedAt sessions := by
    intro f hf us
    induction us with
    | nil => exact fun s => rfl
    | cons u us ih => exact fun s => by rw [List.foldl_cons, hf, ih, List.foldl_cons]
  unfold applyChange
  rw [hfold (f := applyRing historyPerKey change.metadata), hfold]
  · intro s u
    cases u <;> rfl
  · intro s u
    cases u <;> rfl

theorem accept_reframe :
    Registry.accept historyPerKey (s.reframe id openedAt sessions) m e =
      (Registry.accept historyPerKey s m e).reframe id openedAt sessions :=
  applyChange_reframe historyPerKey s id openedAt sessions _

end Accept

/-! ### The core -/

/-- Forgets lifetime flags and the contents of sessions. -/
def coreBlur : Blur where
  asserted := fun _ => false
  session := fun _ => {}

/-- What of a state outlives the process, without its identity. -/
def RegistryState.core (s : RegistryState) : RegistryState :=
  { s.blur coreBlur with id := {}, openedAt := 0 }

theorem core_accept (historyPerKey : UInt32) (s : RegistryState) (m : Attestation) (e : Evidence) :
    (Registry.accept historyPerKey s m e).core =
      Registry.accept historyPerKey s.core (m.blur coreBlur) e := by
  have h := accept_reframe historyPerKey (s.blur coreBlur) (m.blur coreBlur) e {} 0
    (s.blur coreBlur).sessions
  have hs : (Registry.accept historyPerKey s m e).sessions = s.sessions := applyChange_sessions _ _ _
  have hcore : (s.blur coreBlur).reframe {} 0 (s.blur coreBlur).sessions = s.core := rfl
  rw [hcore, ← accept_blur coreBlur historyPerKey s m e rfl] at h
  rw [h]
  simp only [RegistryState.core, RegistryState.reframe, RegistryState.blur, hs]

/-- What a session holds is not part of the core. -/
theorem core_insert_session {key : SourceIncarnationKey} (h : s.sessions.contains key = true)
    (session : SessionRecord) :
    ({ s with sessions := s.sessions.insert key session } : RegistryState).core = s.core := by
  have hmap : ExtTreeMap.map (fun _ session => coreBlur.session session)
      (s.sessions.insert key session) =
      ExtTreeMap.map (fun _ session => coreBlur.session session) s.sessions := by
    apply ExtTreeMap.ext_getElem?
    intro key'
    simp only [ExtTreeMap.getElem?_map, OrdMap.find_insert]
    by_cases hk : key = key'
    · subst hk
      rw [ExtTreeMap.contains_eq_isSome_getElem?] at h
      obtain ⟨stored, hs⟩ := Option.isSome_iff_exists.mp h
      simp only [if_true, hs, Option.map_some, coreBlur]
    · simp only [hk, if_false]
  simp only [RegistryState.core, RegistryState.blur, hmap]

/-- Blurring once more with a blur that forgets the first one. -/
theorem blurGroups_blurGroups {κ ι ν : Type} [Ord κ] [TransOrd κ] [LawfulEqOrd κ] [Ord ι]
    [TransOrd ι] [LawfulEqOrd ι] {b b' : Blur} (h : ∀ r : Folded ν, (r.blur b).blur b' = r.blur b')
    (groups : Groups κ ι ν) : blurGroups b' (blurGroups b groups) = blurGroups b' groups := by
  apply ExtTreeMap.ext_getElem?
  intro k
  rw [find_blurGroups, find_blurGroups, find_blurGroups]
  cases groups[k]? with
  | none => rfl
  | some owners =>
    simp only [Option.map_some, Option.some.injEq]
    apply ExtTreeMap.ext_getElem?
    intro i
    rw [find_blurOwners, find_blurOwners, find_blurOwners]
    cases owners[i]? with
    | none => rfl
    | some r => exact congrArg some (h r)

/-- Forgetting the lifetime does not touch the core. -/
theorem core_clearVolatile (s : RegistryState) : (clearVolatile s).core = s.core := by
  have hfold : ∀ {ν : Type} (r : Folded ν), (r.blur
      { asserted := fun _ => false
        session := fun session => { session with live := false } }).blur coreBlur = r.blur coreBlur := by
    intro ν r
    simp only [Folded.blur, List.map_map]
    rfl
  have hsessions : (clearVolatile s).core.sessions = s.core.sessions := by
    apply ExtTreeMap.ext_getElem?
    intro key
    simp only [clearVolatile, RegistryState.core, RegistryState.blur, ExtTreeMap.getElem?_map,
      Option.map_map]
    rfl
  have hmaps : (clearVolatile s).core =
      { s.core with sessions := (clearVolatile s).core.sessions } := by
    simp only [clearVolatile, RegistryState.core, RegistryState.blur, blurGroups_blurGroups hfold]
  rw [hmaps, hsessions]

/-- States of the same core differ, once their lifetime is forgotten, in their identity, in
the time they were opened and in their sessions. -/
theorem clearVolatile_of_core {s' : RegistryState} (h : s'.core = s.core) :
    clearVolatile s' =
      (clearVolatile s).reframe s'.id s'.openedAt (clearVolatile s').sessions := by
  have hself : ∀ s : RegistryState,
      clearVolatile s = s.core.reframe s.id s.openedAt (clearVolatile s).sessions := fun _ => rfl
  rw [hself s', h]
  rfl

/-- **Whether a record is accepted depends on the core.** -/
theorem isAccepted_decideEvidence_core (limits : Limits) {s : RegistryState}
    {index : Option LabelIndex} (h : CoveredBy s index) (m : Attestation)
    (payload : EvidencePayload) :
    (decideEvidence limits s index m payload).disposition.isAccepted =
      (decideEvidence limits s.core none (m.blur coreBlur) payload).disposition.isAccepted := by
  have houtcome : ∀ u, claimOutcome s.core (m.blur coreBlur) u = claimOutcome s m u := by
    intro u
    rw [← claimOutcome_blur coreBlur s m]
    cases u <;> rfl
  have hroom : ∀ u, HasRoom limits s.core u ↔ HasRoom limits s u := by
    intro u
    rw [← hasRoom_blur coreBlur s]
    cases u <;> rfl
  rw [Bool.eq_iff_iff, isAccepted_decideEvidence_iff h,
    isAccepted_decideEvidence_iff fun i hi => absurd hi (by simp)]
  simp only [houtcome, hroom]
  rfl

end CableRegistry
