import CableRegistry.Lib.Sorting
import CableRegistry.Reopening

/-!
# The label index is a shortcut

A registration is checked against the other objects that carry its label.  The registry looks them
up in an index that it fills on the first use and follows from then on.  `scanLabel` goes through
all stored registrations instead, and `ingestByScan` is an ingest that decides that way.

Both go through objects in ascending order, so they find the same object first
(`find?_holders_eq_scan`), and the two ingests give one answer and leave one state
(`label_index_only_optimises`).  What is needed of the index is that it lists every object that
carries a label.  A registry keeps that up from any disk, over any requests (`Arises.kept`).
-/

open Std

namespace CableRegistry

/-! ### The scan -/

/-- The first other object that carries the label in some stored registration and is not
retired. -/
def scanLabel (state : RegistryState) (label : Text) (object : ObjectId) : Option ObjectId :=
  (state.objectRegistrations.toList.find? fun entry =>
    entry.1 != object && entry.2.toList.any (·.2.value.physicalLabel == label) &&
      (lifecycleActionOf state entry.1).action != .retired).map (·.1)

/-- What is decided about the registration of an object by a scan for its label. -/
def decideByScan (limits : Limits) (state : RegistryState) (metadata : Attestation)
    (descriptor : ObjectDescriptor) : Decision :=
  let update := ClaimUpdate.objectRegistration descriptor.id descriptor
  decideSingle none metadata
    (existingOutcome state.objectRegistrations descriptor.id metadata.owner metadata (· == descriptor))
    update
    ⟨"a different object registration", "the object registration is already recorded",
      "a newer generation of this source already registered the object"⟩ <|
    let conflict := if descriptor.physicalLabel.isEmpty then none
      else scanLabel state descriptor.physicalLabel descriptor.id
    match conflict with
    | some holder => settled none metadata .refusedLabelConflict
        ("the physical label is already bound to live object " ++ holder.toHex)
    | none =>
      if !state.objectRegistrations.contains descriptor.id &&
          state.objectRegistrations.size ≥ limits.maxObjects.toNat then
        settled none metadata .refusedCapacity "the registry has reached its object limit"
      else stageWrite state none metadata update .accepted false false

/-! ### The index and the scan -/

section Decisions

variable {limits : Limits} {s : RegistryState} {index : Option LabelIndex} {m : Attestation}

theorem scanLabel_eq (s : RegistryState) (label : Text) (object : ObjectId) :
    scanLabel s label object =
      (s.objectRegistrations.toList.map (·.1)).find? (holdsLiveLabel s label object) := by
  unfold scanLabel
  rw [List.find?_map]
  refine congrArg (Option.map _) (List.find?_congr fun entry hentry => ?_)
  have hfound : s.objectRegistrations[entry.1]? = some entry.2 := OrdMap.mem_toList.mp hentry
  unfold holdsLiveLabel
  rw [Function.comp_apply, hfound]

/-- **The first live holder by the index is the first by the scan.** -/
theorem find?_holders_eq_scan {index : LabelIndex} (h : index.Covers s) {label : Text}
    (hlabel : label ≠ []) (object : ObjectId) :
    (index.holders label).find? (holdsLiveLabel s label object) = scanLabel s label object := by
  rw [scanLabel_eq]
  have hholders : (index.holders label).Pairwise fun a b => compare a b = .lt := by
    unfold LabelIndex.holders
    cases index[label]? with
    | none => exact List.Pairwise.nil
    | some set => exact ExtTreeSet.ordered_toList
  have hkeys : (s.objectRegistrations.toList.map (·.1)).Pairwise fun a b => compare a b = .lt := by
    rw [List.pairwise_map]
    exact OrdMap.keyOrdered_toList s.objectRegistrations
  refine find?_eq_of_ordered hholders hkeys fun holder hh => ?_
  refine iff_of_true (mem_holders_of_holdsLiveLabel h hlabel hh) ?_
  simp only [holdsLiveLabel, Bool.and_eq_true] at hh
  obtain ⟨⟨-, hreg⟩, -⟩ := hh
  cases ho : s.objectRegistrations[holder]? with
  | none => simp [ho] at hreg
  | some owners => exact List.mem_map.mpr ⟨(holder, owners), OrdMap.mem_toList.mpr ho, rfl⟩

/-- Two decisions that differ in the index they leave at most. -/
structure SameVerdict (d d' : Decision) : Prop where
  change : d'.change = d.change
  disposition : d'.disposition = d.disposition
  detail : d'.detail = d.detail

/-- **A decision by the index is the decision by the scan.** -/
theorem sameVerdict_decideRegisterObject (h : CoveredBy s index) (d : ObjectDescriptor) :
    SameVerdict (decideRegisterObject limits s index m d) (decideByScan limits s m d) := by
  have hconflict : (if (!d.physicalLabel.isEmpty) = true then
      ((index.getD (LabelIndex.rebuild s)).holders d.physicalLabel).find?
        (holdsLiveLabel s d.physicalLabel d.id) else none) =
      if d.physicalLabel.isEmpty = true then none else scanLabel s d.physicalLabel d.id := by
    cases hempty : d.physicalLabel.isEmpty with
    | true => rfl
    | false =>
      have hne : d.physicalLabel ≠ [] := List.isEmpty_eq_false_iff.mp hempty
      simp only [Bool.not_false, if_true, Bool.false_eq_true, if_false]
      exact find?_holders_eq_scan (covers_getD h) hne d.id
  unfold decideRegisterObject decideByScan
  dsimp only
  rw [hconflict]
  cases existingOutcome s.objectRegistrations d.id m.owner m (· == d) with
  | insert =>
    cases (if d.physicalLabel.isEmpty = true then none else scanLabel s d.physicalLabel d.id) with
    | some holder => exact ⟨rfl, rfl, rfl⟩
    | none =>
      unfold decideSingle
      dsimp only
      split <;> exact ⟨rfl, rfl, rfl⟩
  | _ => exact ⟨rfl, rfl, rfl⟩

end Decisions

/-! ### Ingest -/

namespace Registry

/-- An ingest of a registration that is decided by the scan. -/
def ingestByScan (registry : Registry) (header : EvidenceHeader) (payload : RegisterObjectPayload)
    (now : Timestamp) (io : Store.AppendIo) : Registry × IngestResult :=
  let evidence : Evidence := ⟨header, .registerObject payload⟩
  let result : IngestResult :=
    { evidence := header.id, kind := evidence.kindOf, receivedAt := now }
  if registry.closed then
    (registry, { result with
      disposition := .refusedClosed
      detail := "the registry is stopping and no longer accepts work" })
  else match registry.admitRecord evidence now true with
    | .error (disposition, detail) =>
      registry.refuse true { result with disposition := disposition, detail := detail }
    | .ok metadata =>
      let decision := decideByScan registry.limits registry.state metadata payload.descriptor
      conclude evidence true result (registry.commit evidence now true io decision)

/-- Decisions with one verdict are committed alike. -/
theorem commit_congr (r : Registry) (e : Evidence) (t : Timestamp) (persist : Bool)
    (io : Store.AppendIo) {d d' : Decision} (h : SameVerdict d d') :
    (r.commit e t persist io d').2 = (r.commit e t persist io d).2 ∧
      (r.commit e t persist io d').1.state = (r.commit e t persist io d).1.state := by
  unfold commit
  dsimp only
  rw [h.change, h.disposition, h.detail, makeDurable_labelIndex r d'.labelIndex,
    makeDurable_labelIndex r d.labelIndex]
  split
  · dsimp only
    split
    · exact ⟨rfl, rfl⟩
    · exact ⟨rfl, rfl⟩
  · exact ⟨rfl, rfl⟩

theorem conclude_congr (e : Evidence) (persist : Bool) (result : IngestResult)
    {c c' : Registry × IngestDisposition × String} (h : c'.2 = c.2) (hstate : c'.1.state = c.1.state) :
    (conclude e persist result c').2 = (conclude e persist result c).2 ∧
      (conclude e persist result c').1.state = (conclude e persist result c).1.state := by
  obtain ⟨r, d, detail⟩ := c
  obtain ⟨r', d', detail'⟩ := c'
  obtain ⟨rfl, rfl⟩ := Prod.mk.inj h
  unfold conclude touchSession noteRefusal
  dsimp only at hstate ⊢
  rw [hstate]
  refine ⟨rfl, ?_⟩
  split <;> rfl

/-- **The label index is a shortcut.**  In a registry that was opened on any disk and has taken any
requests since, the registration of an object gets the answer of a scan through all stored
registrations and leaves the state that it would leave. -/
theorem label_index_only_optimises {r : Registry} {options : RegistryOptions}
    (h : r.Arises options) (header : EvidenceHeader) (payload : RegisterObjectPayload)
    (now : Timestamp) (io : Store.AppendIo) :
    (r.ingest ⟨header, .registerObject payload⟩ now io).2 = (r.ingestByScan header payload now io).2 ∧
      (r.ingest ⟨header, .registerObject payload⟩ now io).1.state =
        (r.ingestByScan header payload now io).1.state := by
  have hindexed : CoveredBy r.state r.labelIndex := h.kept.1.indexed
  unfold ingest ingestLocked ingestByScan
  dsimp only
  split
  · exact ⟨rfl, rfl⟩
  cases r.admitRecord ⟨header, .registerObject payload⟩ now true with
  | error refusal => exact ⟨rfl, rfl⟩
  | ok m =>
    have hverdict : SameVerdict
        (decideEvidence r.limits r.state r.labelIndex m (.registerObject payload))
        (decideByScan r.limits r.state m payload.descriptor) :=
      sameVerdict_decideRegisterObject hindexed payload.descriptor
    obtain ⟨hresult, hstate⟩ := r.commit_congr ⟨header, .registerObject payload⟩ now true io hverdict
    obtain ⟨hanswer, hleft⟩ := conclude_congr ⟨header, .registerObject payload⟩ true
      { evidence := header.id
        kind := (Evidence.mk header (.registerObject payload)).kindOf
        receivedAt := now } hresult hstate
    exact ⟨hanswer.symm, hleft.symm⟩

/-- An object that carries a label. -/
def sampleTagged (object : UInt64) : RegisterObjectPayload :=
  { descriptor := { id := .fromParts 0 object, physicalLabel := [76], sides := [{}] } }

def sampleTagging : List Request :=
  [sampleOpen 1 1 5, sampleIngest 1 1 1 (.registerObject (sampleTagged 8))]

theorem label_index_only_optimises_sample :
    ∃ (r : Registry) (header : EvidenceHeader), r.Arises {} ∧
      (r.ingest ⟨header, .registerObject (sampleTagged 9)⟩ 4 .written).2.disposition =
        .refusedLabelConflict ∧
      (r.ingestByScan header (sampleTagged 9) 4 .written).2.disposition = .refusedLabelConflict := by
  let header := (sampleRecord 1 1 2 (.registerObject (sampleTagged 9))).header
  obtain ⟨r, es, hr, hp⟩ := exists_reached {} sampleTagging
    (fun r _ => decide ((r.ingest ⟨header, .registerObject (sampleTagged 9)⟩ 4 .written).2.disposition =
      .refusedLabelConflict)) (by decide +kernel)
  have hrefused := of_decide_eq_true hp
  have hsame := (label_index_only_optimises hr.arises header (sampleTagged 9) 4 .written).1
  exact ⟨r, header, hr.arises, hrefused, hsame ▸ hrefused⟩

end Registry

end CableRegistry
