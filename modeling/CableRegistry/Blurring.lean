import CableRegistry.PortParts
import CableRegistry.Snapshot

/-!
# What a snapshot does not show

Receive times, lifetime flags, drop counts and session counters do not show in a
snapshot: `buildSnapshot_blur`.  Under the policy that includes every claim each
derivation either does not read those fields or copies them into its answer, and the
answers are compared after `erase`, which forgets the copies and the validation state
that is computed from the flags.
-/

open Std

namespace CableRegistry

/-! ### Forgetting -/

/-- Forgets the receive time and the lifetime flag. -/
def bare : Blur where
  receivedAt := fun _ => 0
  asserted := fun _ => false

def ClaimProvenance.erase (c : ClaimProvenance) : ClaimProvenance :=
  { c with receivedAt := 0, assertedInLifetime := false }

def AttachmentEdge.erase (e : AttachmentEdge) : AttachmentEdge :=
  { e with
    validation := .unvalidated
    claims := e.claims.map .erase
    overridden := e.overridden.map .erase }

def ConflictNote.erase (n : ConflictNote) : ConflictNote :=
  { n with claims := n.claims.map .erase }

def PortView.erase (v : PortView) : PortView :=
  { v with
    validation := .unvalidated
    edges := v.edges.map .erase
    conflicts := v.conflicts.map .erase
    emptinessClaims := v.emptinessClaims.map .erase }

def ObjectSideView.erase (v : ObjectSideView) : ObjectSideView :=
  { v with
    validation := .unvalidated
    edges := v.edges.map .erase
    conflicts := v.conflicts.map .erase }

def ObjectView.erase (v : ObjectView) : ObjectView :=
  { v with
    validation := .unvalidated
    sides := v.sides.map .erase
    conflicts := v.conflicts.map .erase }

def SubjectDerivation.erase (d : SubjectDerivation) : SubjectDerivation :=
  { d with validation := .unvalidated, top := d.top.map (Attestation.blur bare) }

section

variable (b : Blur)

/-- Claims are sorted by fields that are never blurred. -/
theorem map_erase_sortedClaims (l : List Attestation) :
    (sortedClaims l).map ClaimProvenance.erase = sortedClaims (l.map (Attestation.blur bare)) := by
  have h : sortBy claimOrder ((l.map toProvenance).map ClaimProvenance.erase) =
      (sortBy claimOrder (l.map toProvenance)).map ClaimProvenance.erase := by
    apply sortBy_map
    intro a _ c _
    rfl
  rw [sortedClaims, ← h, sortedClaims, List.map_map, List.map_map]
  rfl

theorem map_erase_sortedClaims_blur (l : List Attestation) :
    (sortedClaims (l.map (Attestation.blur b))).map ClaimProvenance.erase =
      (sortedClaims l).map ClaimProvenance.erase := by
  rw [map_erase_sortedClaims, map_erase_sortedClaims, List.map_map]
  rfl

/-! ### Records -/

/-- Blurs an entry of a map. -/
def blurEntry {ι ν : Type} (e : ι × Folded ν) : ι × Folded ν := (e.1, e.2.blur b)

@[simp] theorem toList_blurOwners' {ι ν : Type} [Ord ι] [TransOrd ι] (owners : OrdMap ι (Folded ν)) :
    (blurOwners b owners).toList = owners.toList.map (blurEntry b) :=
  toList_blurOwners b owners

/-- A pass over a list commutes with a map of the list that its steps respect. -/
theorem foldl_map_natural {α σ : Type} {f : σ → α → σ} {g : α → α} {G : σ → σ}
    (hf : ∀ c x, f (G c) (g x) = G (f c x)) (l : List α) (c : σ) :
    (l.map g).foldl f (G c) = G (l.foldl f c) := by
  induction l generalizing c with
  | nil => rfl
  | cons x l ih => rw [List.map_cons, List.foldl_cons, List.foldl_cons, hf, ih]

theorem chooseRecord_blur {ν : Type} (entries : List (SourceIncarnationKey × Folded ν)) :
    chooseRecord (entries.map (blurEntry b)) = (chooseRecord entries).map (blurEntry b) := by
  refine foldl_map_natural (G := Option.map (blurEntry b)) ?_ entries none
  intro c x
  cases c with
  | none => rfl
  | some y =>
    simp only [Option.map_some]
    rw [apply_ite (Option.map (blurEntry b))]
    rfl

variable (s : RegistryState)

theorem winningRegistration_blur (object : ObjectId) :
    winningRegistration (s.blur b) object = (winningRegistration s object).map (Folded.blur b) := by
  simp only [winningRegistration, RegistryState.blur, find_blurGroups]
  cases s.objectRegistrations[object]? with
  | none => rfl
  | some owners =>
    simp only [Option.map_some, toList_blurOwners', chooseRecord_blur, Option.map_map]
    rfl

theorem winningEndpoint_blur (endpoint : EndpointId) :
    winningEndpoint (s.blur b) endpoint = (winningEndpoint s endpoint).map (Folded.blur b) := by
  simp only [winningEndpoint, RegistryState.blur, find_blurGroups]
  cases s.endpointRegistrations[endpoint]? with
  | none => rfl
  | some owners =>
    simp only [Option.map_some, toList_blurOwners', chooseRecord_blur, Option.map_map]
    rfl

theorem sideDescriptorOf_blur (object : ObjectId) (side : SideIndex) :
    sideDescriptorOf (s.blur b) object side = sideDescriptorOf s object side := by
  simp only [sideDescriptorOf, winningRegistration_blur]
  cases winningRegistration s object <;> rfl

/-- Filtering by what is not blurred commutes with the blur. -/
theorem filter_map_blur {ι ν : Type} {p q : ι × Folded ν → Bool} (l : List (ι × Folded ν))
    (h : ∀ e, p (blurEntry b e) = q e) :
    (l.map (blurEntry b)).filter p = (l.filter q).map (blurEntry b) := by
  rw [List.filter_map]
  congr 1
  exact List.filter_congr fun e _ => h e

theorem recordsOf_blur {κ ι ν : Type} [Ord κ] [TransOrd κ] [Ord ι] [TransOrd ι]
    (groups : Groups κ ι ν) (k : κ) :
    recordsOf (blurGroups b groups) k = (recordsOf groups k).map (blurEntry b) := by
  simp only [recordsOf, find_blurGroups]
  cases groups[k]? with
  | none => rfl
  | some owners => exact toList_blurOwners b owners

/-- Blurs the entry of a choice that carries something along. -/
def blurChoice {ι ν μ : Type} (c : (ι × Folded ν) × μ) : (ι × Folded ν) × μ := (blurEntry b c.1, c.2)

theorem choosePortCapability_blur
    (entries : List (SourceIncarnationKey × Folded PortCapabilityValue)) :
    choosePortCapability (entries.map (blurEntry b)) =
      (choosePortCapability entries).map (blurChoice b) := by
  refine foldl_map_natural (G := Option.map (blurChoice b)) ?_ entries none
  intro c x
  cases c with
  | none => rfl
  | some y =>
    simp only [Option.map_some, apply_ite (Option.map (blurChoice b)), blurChoice,
      apply_ite (blurEntry b)]
    rfl

theorem portCapabilityOf_blur (port : PortRef) :
    portCapabilityOf (s.blur b) port = portCapabilityOf s port := by
  have hp : (s.blur b).portCapabilityRecords = blurGroups b s.portCapabilityRecords := rfl
  simp only [portCapabilityOf, hp, find_blurGroups, winningEndpoint_blur]
  cases s.portCapabilityRecords[port]? with
  | none => cases winningEndpoint s port.endpoint <;> rfl
  | some owners =>
    simp only [Option.map_some, toList_blurOwners']
    rw [filter_map_blur b _ (q := fun entry => !sessionIsFenced s entry.1) (fun e => rfl),
      choosePortCapability_blur]
    cases choosePortCapability (owners.toList.filter fun entry => !sessionIsFenced s entry.1) with
    | none => cases winningEndpoint s port.endpoint <;> rfl
    | some c => rfl

/-! ### Object sides -/

theorem participates_includeAll (m : Attestation) : participates m .includeAll = true := rfl

theorem sideRecords_blur (subject : ObjectSideRef) :
    sideRecords (s.blur b) subject .includeAll =
      (sideRecords s subject .includeAll).map (blurEntry b) := by
  have hr : (s.blur b).subjectRecords = blurGroups b s.subjectRecords := rfl
  simp only [sideRecords, objectIncarnationOf_blur, objectExists_blur, hr, recordsOf_blur]
  split
  · exact filter_map_blur b _ fun _ => rfl
  · rfl

theorem claimSet_blur (l : List Attestation) :
    (claimSet (l.map (Attestation.blur b))).any = (claimSet l).any ∧
      (claimSet (l.map (Attestation.blur b))).authority = (claimSet l).authority ∧
      (claimSet (l.map (Attestation.blur b))).top = (claimSet l).top.map (Attestation.blur b) := by
  have hauth : (l.map (Attestation.blur b)).map (·.authority) = l.map (·.authority) := by
    rw [List.map_map]
    rfl
  simp only [claimSet, List.isEmpty_map, hauth]
  split
  · exact ⟨rfl, rfl, rfl⟩
  · refine ⟨rfl, rfl, ?_⟩
    simp only [List.filter_map]
    exact sortBy_map _ _ fun _ _ _ _ => rfl

theorem derivationFrom_blur (current : ObjectIncarnation) (records : List SideRecord) :
    (derivationFrom current (records.map (blurEntry b))).erase =
      (derivationFrom current records).erase := by
  have hkind : ∀ attached, (records.map (blurEntry b)).filter (·.2.value.attached == attached) =
      (records.filter (·.2.value.attached == attached)).map (blurEntry b) := fun _ =>
    filter_map_blur b _ fun _ => rfl
  have hmetadata : ∀ l : List SideRecord, (l.map (blurEntry b)).map (·.2.metadata) =
      (l.map (·.2.metadata)).map (Attestation.blur b) := by simp [blurEntry, Folded.blur]
  simp only [derivationFrom, hkind, hmetadata]
  generalize records.filter (·.2.value.attached == true) = attached
  obtain ⟨ha, haa, hat⟩ := claimSet_blur b (attached.map (·.2.metadata))
  obtain ⟨hd, hda, -⟩ := claimSet_blur b
    ((records.filter (·.2.value.attached == false)).map (·.2.metadata))
  have hwinners : ∀ authority, (attached.map (blurEntry b)).filter
      (·.2.metadata.authority == authority) =
      (attached.filter (·.2.metadata.authority == authority)).map (blurEntry b) := fun _ =>
    filter_map_blur b _ fun _ => rfl
  have hports : ∀ l : List SideRecord, ((l.map (blurEntry b)).map (·.2)).map (·.value.port) =
      (l.map (·.2)).map (·.value.port) := by simp [blurEntry, Folded.blur]
  simp only [ha, haa, hat, hd, hda, hwinners, hports]
  split
  · rfl
  split
  · rfl
  split
  · rfl
  · simp only [SubjectDerivation.erase, List.map_map]
    rfl

/-- Where a side is does not depend on what is blurred. -/
theorem deriveSubject_blur (subject : ObjectSideRef) :
    (deriveSubject (s.blur b) subject .includeAll).erase =
      (deriveSubject s subject .includeAll).erase := by
  rw [deriveSubject_eq_derivationFrom, deriveSubject_eq_derivationFrom, objectIncarnationOf_blur,
    sideRecords_blur, derivationFrom_blur]

/-- A derived field that `erase` leaves alone. -/
theorem deriveSubject_blur_field {α : Type} (field : SubjectDerivation → α)
    (h : ∀ d, field d.erase = field d) (subject : ObjectSideRef) :
    field (deriveSubject (s.blur b) subject .includeAll) =
      field (deriveSubject s subject .includeAll) := by
  rw [← h, deriveSubject_blur, h]

theorem subjectDoubleBooked_blur (subject : ObjectSideRef) :
    subjectDoubleBooked (s.blur b) subject .includeAll = subjectDoubleBooked s subject .includeAll :=
  deriveSubject_blur_field b s (fun d => d.state == .conflicting && d.ports.length > 1)
    (fun _ => rfl) subject

/-! ### Lifecycle -/

def LifecycleCandidate.blur (c : LifecycleCandidate) : LifecycleCandidate :=
  { c with metadata := c.metadata.blur b }

theorem lifecycleCandidates_blur (object : ObjectId) :
    lifecycleCandidates (s.blur b) object =
      (lifecycleCandidates s object).map (LifecycleCandidate.blur b) := by
  have hl : (s.blur b).lifecycleRecords = blurGroups b s.lifecycleRecords := rfl
  have hr : (s.blur b).reincarnationRecords = blurGroups b s.reincarnationRecords := rfl
  rw [lifecycleCandidates_eq, lifecycleCandidates_eq, objectIncarnationOf_blur, hl, hr,
    recordsOf_blur, recordsOf_blur, List.map_append, List.filter_map, List.filter_map]
  simp only [List.map_map]
  rfl

theorem lifecycleActionOf_blur (object : ObjectId) :
    lifecycleActionOf (s.blur b) object =
      { lifecycleActionOf s object with
        citations := (lifecycleActionOf s object).citations.map (Attestation.blur b) } := by
  simp only [lifecycleActionOf, lifecycleCandidates_blur]
  generalize lifecycleCandidates s object = l
  have hauth : (l.map (LifecycleCandidate.blur b)).map (·.metadata.authority) =
      l.map (·.metadata.authority) := by
    rw [List.map_map]
    rfl
  have hwin : (l.map (LifecycleCandidate.blur b)).filter
      (·.metadata.authority == bestAuthority (l.map (·.metadata.authority))) =
      (l.filter (·.metadata.authority == bestAuthority (l.map (·.metadata.authority)))).map
        (LifecycleCandidate.blur b) := by
    rw [List.filter_map]
    rfl
  have hact : ∀ w : List LifecycleCandidate,
      resolveActions (w.map (LifecycleCandidate.blur b)) = resolveActions w := by
    intro w
    simp only [resolveActions, List.any_map]
    rfl
  simp only [List.isEmpty_map, hauth, hwin, hact]
  split
  · rfl
  · simp only [List.map_map]
    rfl

theorem objectExcluded_blur (object : ObjectId) :
    objectExcluded (s.blur b) object = objectExcluded s object := by
  simp only [objectExcluded, lifecycleActionOf_blur]

/-! ### Ports -/

theorem subjectStillHere_blur (port : PortRef) (key : PortSlotKey) (folded : Folded PortValue)
    (current : ObjectIncarnation) :
    subjectStillHere (s.blur b) port key (folded.blur b) current =
      subjectStillHere s port key folded current := by
  have hr : (s.blur b).subjectRecords = blurGroups b s.subjectRecords := rfl
  have hv : (folded.blur b).value = folded.value := rfl
  simp only [subjectStillHere, hr, hv, find_blurGroups]
  cases s.subjectRecords[folded.value.subject]? with
  | none => rfl
  | some owners =>
    simp only [Option.map_some, find_blurOwners]
    cases owners[key.owner]? <;> rfl

theorem portRecordLive_blur (port : PortRef) (key : PortSlotKey) (folded : Folded PortValue) :
    portRecordLive (s.blur b) port .includeAll key (folded.blur b) =
      portRecordLive s port .includeAll key folded := by
  have hv : (folded.blur b).value = folded.value := rfl
  simp only [portRecordLive, hv, objectIncarnationOf_blur, objectExists_blur, objectExcluded_blur,
    sessionIsFenced_blur, subjectStillHere_blur, participates_includeAll]

theorem livePortRecords_blur (port : PortRef) :
    livePortRecords (s.blur b) port .includeAll =
      (livePortRecords s port .includeAll).map (blurEntry b) := by
  have hr : (s.blur b).portRecords = blurGroups b s.portRecords := rfl
  simp only [livePortRecords, hr, find_blurGroups]
  cases s.portRecords[port]? with
  | none => rfl
  | some records =>
    simp only [Option.map_some, toList_blurOwners']
    exact filter_map_blur b _ fun e => portRecordLive_blur b s port e.1 e.2

/-- The claims of a list of slot records, after forgetting. -/
theorem map_erase_claims_blur (l : List LiveRecord) :
    (sortedClaims ((l.map (blurEntry b)).map LiveRecord.metadata)).map ClaimProvenance.erase =
      (sortedClaims (l.map LiveRecord.metadata)).map ClaimProvenance.erase := by
  rw [← map_erase_sortedClaims_blur b (l.map LiveRecord.metadata), List.map_map, List.map_map]
  rfl

def PortContext.erase (c : PortContext) : PortContext :=
  { c with overridden := c.overridden.map .erase }

theorem portEdge_blur {c c' : PortContext} (hc : c'.erase = c.erase) (occupied : List LiveRecord)
    (subject : ObjectSideRef) :
    (portEdge (s.blur b) c' (occupied.map (blurEntry b)) subject).erase =
      (portEdge s c occupied subject).erase := by
  have hm : (occupied.map (blurEntry b)).filter (·.2.value.subject == subject) =
      (occupied.filter (·.2.value.subject == subject)).map (blurEntry b) :=
    filter_map_blur b _ fun _ => rfl
  simp only [portEdge, hm, sideDescriptorOf_blur]
  generalize occupied.filter (·.2.value.subject == subject) = matching
  obtain ⟨p, cap, best, conf, low, total⟩ := c
  obtain ⟨p', cap', best', conf', low', total'⟩ := c'
  simp only [PortContext.erase, PortContext.mk.injEq] at hc
  obtain ⟨rfl, rfl, rfl, rfl, hlow, rfl⟩ := hc
  simp only [AttachmentEdge.erase, hlow, map_erase_claims_blur, List.getLast?_map, Option.map_map]
  rfl

theorem compatibilityNotes_erase (e : AttachmentEdge) :
    (compatibilityNotes e).map .erase = compatibilityNotes e.erase := by
  obtain ⟨subject, port, slot, authority, validation, connector, media, rest⟩ := e
  cases connector <;> cases media <;> rfl

theorem map_erase_flatMap_notes (l : List AttachmentEdge) :
    (l.flatMap compatibilityNotes).map .erase =
      (l.map AttachmentEdge.erase).flatMap compatibilityNotes := by
  rw [List.map_flatMap, List.flatMap_map]
  simp only [compatibilityNotes_erase]

theorem doubleBookedNote_blur (port : PortRef) (subject : ObjectSideRef) :
    (doubleBookedNote (s.blur b) .includeAll port subject).erase =
      (doubleBookedNote s .includeAll port subject).erase := by
  have h := congrArg SubjectDerivation.top (deriveSubject_blur b s subject)
  simp only [SubjectDerivation.erase] at h
  simp only [doubleBookedNote, ConflictNote.erase, map_erase_sortedClaims, h]

section Parts

variable (port : PortRef)

theorem portRecords_blur :
    topAuthority (s.blur b) port .includeAll = topAuthority s port .includeAll ∧
      topPortRecords (s.blur b) port .includeAll =
        (topPortRecords s port .includeAll).map (blurEntry b) ∧
      lowerPortRecords (s.blur b) port .includeAll =
        (lowerPortRecords s port .includeAll).map (blurEntry b) := by
  have hauth : topAuthority (s.blur b) port .includeAll = topAuthority s port .includeAll := by
    simp only [topAuthority, livePortRecords_blur, List.map_map]
    rfl
  simp only [topPortRecords, lowerPortRecords, hauth, livePortRecords_blur, true_and]
  exact ⟨filter_map_blur b _ fun _ => rfl, filter_map_blur b _ fun _ => rfl⟩

theorem emptyRecords_blur :
    emptyRecords (s.blur b) port .includeAll = (emptyRecords s port .includeAll).map (blurEntry b) := by
  simp only [emptyRecords, (portRecords_blur b s port).2.1]
  exact filter_map_blur b _ fun _ => rfl

theorem occupiedRecords_blur :
    occupiedRecords (s.blur b) port .includeAll =
      (occupiedRecords s port .includeAll).map (blurEntry b) := by
  simp only [occupiedRecords, (portRecords_blur b s port).2.1]
  exact filter_map_blur b _ fun _ => rfl

theorem occupants_blur : occupants (s.blur b) port .includeAll = occupants s port .includeAll := by
  simp only [occupants, occupiedRecords_blur, List.map_map]
  rfl

theorem portConflicting_blur :
    tooManyOccupants (s.blur b) port .includeAll = tooManyOccupants s port .includeAll ∧
      portConflicting (s.blur b) port .includeAll = portConflicting s port .includeAll := by
  simp only [tooManyOccupants, portConflicting, occupants_blur, portCapabilityOf_blur,
    emptyRecords_blur, List.isEmpty_map, subjectDoubleBooked_blur, and_self]

theorem portContext_blur (limits : Limits) :
    (portContext (s.blur b) limits port .includeAll).erase =
      (portContext s limits port .includeAll).erase := by
  obtain ⟨hauth, -, hlower⟩ := portRecords_blur b s port
  simp only [portContext, PortContext.erase, portCapabilityOf_blur, hauth, hlower,
    (portConflicting_blur b s port).2, ← List.map_take, map_erase_claims_blur, List.length_map]

theorem portEdges_blur (limits : Limits) :
    (portEdges (s.blur b) limits port .includeAll).map .erase =
      (portEdges s limits port .includeAll).map AttachmentEdge.erase := by
  simp only [portEdges, occupants_blur, occupiedRecords_blur, List.map_map]
  exact List.map_congr_left fun subject _ => portEdge_blur b s (portContext_blur b s port limits) _ subject

theorem doubleBookedNotes_blur :
    (doubleBookedNotes (s.blur b) port .includeAll).map .erase =
      (doubleBookedNotes s port .includeAll).map ConflictNote.erase := by
  simp only [doubleBookedNotes, occupants_blur, subjectDoubleBooked_blur, List.map_map]
  exact List.map_congr_left fun subject _ => doubleBookedNote_blur b s port subject

/-- **A port's view does not depend on what is blurred**, apart from what it copies. -/
theorem derivePortView_blur (limits : Limits) :
    (derivePortView (s.blur b) limits port .includeAll).erase =
      (derivePortView s limits port .includeAll).erase := by
  obtain ⟨hmany, hconflicting⟩ := portConflicting_blur b s port
  rw [derivePortView_eq, derivePortView_eq]
  simp only [PortView.erase, portCapabilityOf_blur, occupiedRecords_blur, emptyRecords_blur,
    List.isEmpty_map, List.length_map, hconflicting, portEdges_blur, map_erase_claims_blur,
    PortView.mk.injEq, true_and, and_true]
  split
  · rfl
  · simp only [List.map_append, map_erase_flatMap_notes, portEdges_blur, doubleBookedNotes_blur,
      tooManyNotes, mixedNotes, hmany, emptyRecords_blur, List.isEmpty_map, apply_ite (List.map _),
      List.map_cons, List.map_nil, tooManyNote, mixedNote, ConflictNote.erase, occupants_blur,
      portCapabilityOf_blur, occupiedRecords_blur, (portRecords_blur b s port).2.1,
      map_erase_claims_blur]

end Parts

/-! ### Objects -/

theorem replacementSerial_blur (object : ObjectId) :
    replacementSerial (s.blur b) object = replacementSerial s object := by
  have hr : (s.blur b).reincarnationRecords = blurGroups b s.reincarnationRecords := rfl
  simp only [replacementSerial, hr, find_blurGroups, objectIncarnationOf_blur]
  cases s.reincarnationRecords[object]? with
  | none => rfl
  | some owners =>
    simp only [Option.map_some, toList_blurOwners']
    rw [filter_map_blur b _ (q := fun entry => !sessionIsFenced s entry.1 &&
      entry.2.value.target == objectIncarnationOf s object) (fun _ => rfl), chooseRecord_blur]
    cases chooseRecord (owners.toList.filter fun entry => !sessionIsFenced s entry.1 &&
      entry.2.value.target == objectIncarnationOf s object) <;> rfl

theorem chooseObjectCapability_blur
    (entries : List (SourceIncarnationKey × Folded ObjectCapabilityValue)) :
    chooseObjectCapability (entries.map (blurEntry b)) =
      (chooseObjectCapability entries).map (blurChoice b) := by
  refine foldl_map_natural (G := Option.map (blurChoice b)) ?_ entries none
  intro c x
  cases c with
  | none => rfl
  | some y =>
    simp only [Option.map_some, apply_ite (Option.map (blurChoice b)), blurChoice,
      apply_ite (blurEntry b)]
    rfl

theorem registrationsDiffer_blur
    (entries : List (SourceIncarnationKey × Folded ObjectRegistrationValue))
    (winning : ObjectRegistrationValue) :
    registrationsDiffer (entries.map (blurEntry b)) winning = registrationsDiffer entries winning := by
  unfold registrationsDiffer
  rw [List.foldl_map]
  rfl

theorem deriveSideView_blur (reference : ObjectSideRef) :
    (deriveSideView (s.blur b) .includeAll reference).erase =
      (deriveSideView s .includeAll reference).erase := by
  have hd := deriveSubject_blur b s reference
  simp only [deriveSideView, sideDescriptorOf_blur]
  generalize deriveSubject (s.blur b) reference .includeAll = d' at hd ⊢
  generalize deriveSubject s reference .includeAll = d at hd ⊢
  obtain ⟨has, st, val, auth, inc, ports, slots, top⟩ := d
  obtain ⟨has', st', val', auth', inc', ports', slots', top'⟩ := d'
  simp only [SubjectDerivation.erase, SubjectDerivation.mk.injEq] at hd
  obtain ⟨rfl, rfl, -, rfl, rfl, rfl, rfl, htop⟩ := hd
  have hclaims : (sortedClaims top').map ClaimProvenance.erase =
      (sortedClaims top).map ClaimProvenance.erase := by
    rw [map_erase_sortedClaims, map_erase_sortedClaims, htop]
  simp only [ObjectSideView.erase, ObjectSideView.mk.injEq, true_and]
  constructor
  · apply List.ext_getElem?
    intro index
    simp only [List.getElem?_map, List.getElem?_mapIdx, Option.map_map]
    congr 1
    funext port
    simp only [Function.comp_apply, sideEdge, AttachmentEdge.erase, hclaims, portCapabilityOf_blur]
  · split
    · simp only [List.map_cons, List.map_nil, ConflictNote.erase, hclaims]
    · rfl

/-- Whether any side of a list is in a state that `erase` leaves alone. -/
theorem any_deriveSubject_blur (test : SubjectDerivation → Bool) (h : ∀ d, test d.erase = test d)
    (references : List ObjectSideRef) :
    (references.map (deriveSubject (s.blur b) · .includeAll)).any test =
      (references.map (deriveSubject s · .includeAll)).any test := by
  rw [List.any_map, List.any_map]
  congr 1
  funext reference
  exact deriveSubject_blur_field b s test h reference

/-- **An object's view does not depend on what is blurred**, apart from what it copies. -/
theorem deriveObjectView_blur (limits : Limits) (object : ObjectId) :
    (deriveObjectView (s.blur b) limits object {}).erase =
      (deriveObjectView s limits object {}).erase := by
  simp only [deriveObjectView, winningRegistration_blur]
  cases hw : winningRegistration s object with
  | none => rfl
  | some registration =>
    have hv : (registration.blur b).value = registration.value := rfl
    have hregs : recordsOf (s.blur b).objectRegistrations object =
        (recordsOf s.objectRegistrations object).map (blurEntry b) := recordsOf_blur b _ _
    have hpub : chooseObjectCapability ((recordsOf (s.blur b).objectCapabilityRecords object).filter
        fun entry => !sessionIsFenced (s.blur b) entry.1) =
        (chooseObjectCapability ((recordsOf s.objectCapabilityRecords object).filter
          fun entry => !sessionIsFenced s entry.1)).map (blurChoice b) := by
      have hfilter := filter_map_blur b (recordsOf s.objectCapabilityRecords object)
        (p := fun entry => !sessionIsFenced (s.blur b) entry.1)
        (q := fun entry => !sessionIsFenced s entry.1) fun _ => rfl
      rw [← chooseObjectCapability_blur, ← hfilter, ← recordsOf_blur]
      rfl
    have hlife : ∀ x y, deriveLifecycle (s.blur b) object x y =
        { deriveLifecycle s object x y with
          citations := (deriveLifecycle s object x y).citations.map (Attestation.blur b) } := by
      intro x y
      simp only [deriveLifecycle, lifecycleActionOf_blur]
    have hsides : ∀ l : List ObjectSideRef,
        (l.map (deriveSideView (s.blur b) .includeAll)).map .erase =
          (l.map (deriveSideView s .includeAll)).map ObjectSideView.erase := by
      intro l
      rw [List.map_map, List.map_map]
      exact List.map_congr_left fun reference _ => deriveSideView_blur b s reference
    simp only [Option.map_some, hv, hpub, hregs, registrationsDiffer_blur, hlife,
      replacementSerial_blur, objectIncarnationOf_blur, Option.map_map]
    rw [any_deriveSubject_blur b s (fun d => d.state == .attached || d.state == .conflicting)
        (fun _ => rfl),
      any_deriveSubject_blur b s (fun d => d.state == .empty) (fun _ => rfl)]
    have hvalue : (fun c : (SourceIncarnationKey × Folded NominalCapability) × Bool =>
        c.1.2.value) ∘ blurChoice b = fun c => c.1.2.value := rfl
    have hflag : (fun c : (SourceIncarnationKey × Folded NominalCapability) × Bool => c.2) ∘
        blurChoice b = fun c => c.2 := rfl
    simp only [ObjectView.erase, hsides, List.map_append, ObjectView.mk.injEq, true_and, and_true,
      hvalue, hflag, Bool.false_eq_true, if_false, if_true]
    congr 1
    split
    · simp only [List.map_cons, List.map_nil, ConflictNote.erase, map_erase_sortedClaims_blur]
    · rfl

/-! ### Counters and images -/

theorem claimCount_blur {ν : Type} (r : Folded ν) : (r.blur b).claimCount = r.claimCount := by
  simp [Folded.claimCount, Folded.blur]

section Groups

variable {κ ι ν : Type} [Ord κ] [TransOrd κ] [Ord ι] [TransOrd ι] (groups : Groups κ ι ν)

theorem sumGroups_blur (weight : κ → ι → Folded ν → UInt64) :
    sumGroups (blurGroups b groups) weight =
      sumGroups groups (fun k i r => weight k i (r.blur b)) := by
  simp only [sumGroups, toList_blurGroups, toList_blurOwners, List.foldl_map]

/-- A map of groups that is encoded entry by entry, and whose entries encode alike. -/
theorem imageGroup_blur (encodePrimary : κ → List Write) (encodeInner : ι → List Write)
    (encodeValue : ν → List Write) :
    imageGroup encodePrimary encodeInner encodeValue (blurGroups b groups) =
      imageGroup encodePrimary encodeInner encodeValue groups := by
  simp only [imageGroup, encodeMap, size_blurGroups, toList_blurGroups, size_blurOwners,
    toList_blurOwners, List.flatMap_map]
  rfl

end Groups

theorem staleCount_blur {ν : Type} (incarnation : ν → ObjectIncarnation)
    (current : ObjectIncarnation) (owners : OrdMap SourceIncarnationKey (Folded ν)) :
    staleCount incarnation current (blurOwners b owners) = staleCount incarnation current owners := by
  simp only [staleCount, toList_blurOwners, List.foldl_map, claimCount_blur]
  rfl

theorem sumFenced_blur {κ ν : Type} [Ord κ] [TransOrd κ]
    (groups : Groups κ SourceIncarnationKey ν) :
    sumFenced (s.blur b) (blurGroups b groups) = sumFenced s groups := by
  simp only [sumFenced, sumGroups_blur, claimCount_blur, sessionIsFenced_blur]

theorem countUnregistered_blur {ν : Type} (groups : Groups ObjectId SourceIncarnationKey ν) :
    countUnregistered (s.blur b) (blurGroups b groups) = countUnregistered s groups := by
  simp only [countUnregistered, sumGroups_blur, objectExists_blur]

theorem scanOwners_blur {κ ν : Type} [Ord κ] [TransOrd κ]
    (groups : Groups κ SourceIncarnationKey ν) (selected : SourceIncarnationKey → Bool) :
    scanOwners (blurGroups b groups) selected = scanOwners groups selected := by
  simp only [scanOwners, sumGroups_blur, claimCount_blur]

theorem incarnationFenced_blur (object : ObjectId) (incarnation : ObjectIncarnation) :
    incarnationFenced (s.blur b) object incarnation = incarnationFenced s object incarnation := by
  simp only [incarnationFenced, objectExists_blur, objectIncarnationOf_blur]

theorem countFencedClaims_blur : countFencedClaims (s.blur b) = countFencedClaims s := by
  simp only [countFencedClaims, sessionIsFenced_blur, incarnationFenced_blur]
  simp only [RegistryState.blur, sumGroups_blur, claimCount_blur]
  rw [← sumFenced_blur b s s.objectCapabilityRecords, ← sumFenced_blur b s s.portCapabilityRecords]
  rfl

theorem countPendingClaims_blur : countPendingClaims (s.blur b) = countPendingClaims s := by
  simp only [countPendingClaims, sessionIsFenced_blur, objectExists_blur, portExists_blur,
    objectIncarnationOf_blur]
  rw [← countUnregistered_blur b s s.lifecycleRecords,
    ← countUnregistered_blur b s s.reincarnationRecords,
    ← countUnregistered_blur b s s.objectCapabilityRecords]
  simp only [RegistryState.blur, sumGroups_blur]
  rfl

theorem countOwned_blur (selected : SourceIncarnationKey → Bool) :
    countOwned (s.blur b) selected = countOwned s selected := by
  simp only [countOwned, RegistryState.blur, scanOwners_blur, sumGroups_blur, claimCount_blur]

theorem fencedClaimsByObject_blur : fencedClaimsByObject (s.blur b) = fencedClaimsByObject s := by
  simp only [fencedClaimsByObject, objectIncarnationOf_blur]
  simp only [RegistryState.blur, toList_blurGroups, List.foldl_map, staleCount_blur,
    toList_blurOwners, claimCount_blur]
  rfl

theorem encodeProvenanceImage_blur (limits : Limits) :
    encodeProvenanceImage (s.blur b) limits = encodeProvenanceImage s limits := by
  simp only [encodeProvenanceImage, RegistryState.blur, imageGroup_blur]

/-! ### Snapshots -/

theorem toSnapshotAttachment_erase (e : AttachmentEdge) :
    toSnapshotAttachment e.erase = toSnapshotAttachment e := by
  simp only [toSnapshotAttachment, AttachmentEdge.erase, List.map_map]
  rfl

theorem toSnapshotConflict_erase (n : ConflictNote) :
    toSnapshotConflict n.erase = toSnapshotConflict n := by
  simp only [toSnapshotConflict, ConflictNote.erase, List.map_map]
  rfl

theorem toSnapshotPort_erase (v : PortView) : toSnapshotPort v.erase = toSnapshotPort v := by
  have ha : toSnapshotAttachment ∘ AttachmentEdge.erase = toSnapshotAttachment :=
    funext toSnapshotAttachment_erase
  have hc : toSnapshotConflict ∘ ConflictNote.erase = toSnapshotConflict :=
    funext toSnapshotConflict_erase
  simp only [toSnapshotPort, PortView.erase, List.map_map, ha, hc]

theorem toSnapshotObject_erase (v : ObjectView) : toSnapshotObject v.erase = toSnapshotObject v := by
  have ha : toSnapshotAttachment ∘ AttachmentEdge.erase = toSnapshotAttachment :=
    funext toSnapshotAttachment_erase
  simp only [toSnapshotObject, ObjectView.erase, List.map_map, List.flatMap_map,
    ObjectSideView.erase, ha]
  rfl

theorem count64_map {α β : Type} (f : α → β) (l : List α) (p : β → Bool) :
    count64 (l.map f) p = count64 l (p ∘ f) := by
  simp [count64]

/-- A summary counts what `erase` keeps, apart from the unvalidated edges. -/
theorem summarize_erase (ports : List PortView) (objects : List ObjectView)
    (fenced pending : UInt64) :
    { summarize (ports.map PortView.erase) (objects.map ObjectView.erase) fenced pending with
      edgesUnvalidated := 0 } =
      { summarize ports objects fenced pending with edgesUnvalidated := 0 } := by
  simp only [summarize, count64_map, List.countP_map, List.map_map, List.length_map]
  simp only [Function.comp_def, PortView.erase, ObjectView.erase, List.length_map]

/-- **A snapshot shows nothing that is blurred.** -/
theorem buildSnapshot_blur (limits : Limits) :
    buildSnapshot (s.blur b) limits = buildSnapshot s limits := by
  have hobjects : ((s.blur b).objectRegistrations.toList.map fun e =>
        deriveObjectView (s.blur b) limits e.1 {}).map ObjectView.erase =
      (s.objectRegistrations.toList.map fun e => deriveObjectView s limits e.1 {}).map .erase := by
    simp only [RegistryState.blur, toList_blurGroups, List.map_map]
    exact List.map_congr_left fun e _ => deriveObjectView_blur b s limits e.1
  have hports : ((s.blur b).portRecords.toList.map fun e =>
        derivePortView (s.blur b) limits e.1 .includeAll).map PortView.erase =
      (s.portRecords.toList.map fun e => derivePortView s limits e.1 .includeAll).map .erase := by
    simp only [RegistryState.blur, toList_blurGroups, List.map_map]
    exact List.map_congr_left fun e _ => derivePortView_blur b s e.1 limits
  have ho : toSnapshotObject ∘ ObjectView.erase = toSnapshotObject := funext toSnapshotObject_erase
  have hp : toSnapshotPort ∘ PortView.erase = toSnapshotPort := funext toSnapshotPort_erase
  simp only [buildSnapshot, TopologySnapshot.mk.injEq, true_and]
  refine ⟨rfl, ?_, ?_, ?_, ?_, ?_, ?_, ?_⟩
  · rw [← summarize_erase, hobjects, hports, summarize_erase, countFencedClaims_blur,
      countPendingClaims_blur]
  · rw [← ho, ← List.map_map, hobjects, List.map_map]
  · simp only [RegistryState.blur, toList_blurGroups, List.filterMap_map]
    congr 1
    funext e
    have h := winningEndpoint_blur b s e.1
    simp only [RegistryState.blur] at h
    simp only [Function.comp_apply, h, Option.map_map]
    rfl
  · rw [← hp, ← List.map_map, hports, List.map_map]
  · simp only [fencedSession, countSessionClaims, countOwned_blur, sessionIsFenced_blur]
    simp only [RegistryState.blur, ExtTreeMap.toList_map, List.filter_map, List.map_map]
    rfl
  · simp only [fencedClaimsByObject_blur, objectIncarnationOf_blur]
  · rw [encodeProvenanceImage_blur]

end

/-- The identity of a registry and the time it was opened show in a snapshot as its
identity only. -/
theorem buildSnapshot_identity (s : RegistryState) (id : RegistryId) (openedAt : Timestamp)
    (limits : Limits) :
    buildSnapshot { s with id := id, openedAt := openedAt } limits =
      { buildSnapshot s limits with registry := id } := by
  have hobject : ∀ object options,
      deriveObjectView { s with id := id, openedAt := openedAt } limits object options =
        deriveObjectView s limits object options := by
    intro object options
    rfl
  have hport : ∀ port policy,
      derivePortView { s with id := id, openedAt := openedAt } limits port policy =
        derivePortView s limits port policy := by
    intro port policy
    rfl
  simp only [buildSnapshot, hobject, hport]
  rfl

end CableRegistry
