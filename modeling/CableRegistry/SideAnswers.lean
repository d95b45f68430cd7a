import CableRegistry.Derive

/-!
# What a side answer says

`deriveSubject` in closed form: the live records of a side (`sideRecords`) split into those
that say it is attached and those that say it is detached, the higher authority wins, and a
tie is a conflict.  The ports of the winning attachments are the ports of the side
(`sidePorts`).  The later modules read a side's derivation through `deriveSubject_eq`.
-/

open Std (ExtTreeMap)

namespace CableRegistry

/-! ### The highest authority -/

theorem bestAuthority_eq_highest (l : List Authority) :
    bestAuthority l = highest (fun _ => false) id (l.headD {}) l := by
  simp [bestAuthority, highest]

variable {attached : Bool} {l : List Authority} {record : SideRecord}

theorem le_bestAuthority {a : Authority} (h : a ∈ l) : a ≤ bestAuthority l := by
  rw [bestAuthority_eq_highest]
  exact (highest_spec (fun _ => false) id _ l).2.1 a h rfl

theorem bestAuthority_mem (h : l ≠ []) : bestAuthority l ∈ l := by
  rw [bestAuthority_eq_highest]
  rcases (highest_spec (fun _ => false) id (l.headD {}) l).2.2 with heq | ⟨a, ha, -, heq⟩
  · rw [heq]
    cases l with
    | nil => exact absurd rfl h
    | cons a l => exact List.mem_cons_self
  · rw [heq]
    exact ha

/-- The highest authority is the one that is there and that no other exceeds. -/
theorem bestAuthority_eq {a : Authority} (h : a ∈ l) (hmax : ∀ b ∈ l, b ≤ a) :
    bestAuthority l = a :=
  le_antisymm (hmax _ (bestAuthority_mem (List.ne_nil_of_mem h))) (le_bestAuthority h)

/-- What has the highest authority of a list. -/
theorem mem_filter_best {α : Type} {f : α → Authority} {l : List α} {x : α} :
    x ∈ l.filter (f · == bestAuthority (l.map f)) ↔ x ∈ l ∧ ∀ y ∈ l, f y ≤ f x := by
  rw [List.mem_filter, beq_iff_eq]
  refine and_congr_right fun hx => ⟨fun heq y hy => ?_, fun hmax => ?_⟩
  · rw [heq]
    exact le_bestAuthority (List.mem_map_of_mem hy)
  · exact (bestAuthority_eq (List.mem_map_of_mem hx) (List.forall_mem_map.mpr hmax)).symm

theorem exists_best {α : Type} {f : α → Authority} {l : List α} (h : l ≠ []) :
    ∃ x ∈ l, f x = bestAuthority (l.map f) ∧ ∀ y ∈ l, f y ≤ f x := by
  have hne : l.map f ≠ [] := by simpa using h
  obtain ⟨x, hx, heq⟩ := List.mem_map.mp (bestAuthority_mem hne)
  refine ⟨x, hx, heq, fun y hy => ?_⟩
  rw [heq]
  exact le_bestAuthority (List.mem_map_of_mem hy)

/-! ### The records under a key -/

theorem mem_recordsOf {κ ι ν : Type} [Ord κ] [Std.TransOrd κ] [Ord ι] [Std.TransOrd ι] [Std.LawfulEqOrd ι]
    {groups : Groups κ ι ν} {k : κ} {entry : ι × Folded ν} :
    entry ∈ recordsOf groups k ↔ OrdMap.find₂ groups k entry.1 = some entry.2 := by
  unfold recordsOf OrdMap.find₂
  cases groups[k]? with
  | none => simp
  | some owners => exact OrdMap.mem_toList

theorem lifecycleCandidates_eq (s : RegistryState) (object : ObjectId) :
    lifecycleCandidates s object =
      ((recordsOf s.lifecycleRecords object).filter fun entry => !sessionIsFenced s entry.1 &&
        entry.2.value.objectIncarnation == objectIncarnationOf s object).map
        (fun entry => ⟨entry.2.value.action, false, entry.2.metadata⟩) ++
      ((recordsOf s.reincarnationRecords object).filter fun entry => !sessionIsFenced s entry.1 &&
        entry.2.value.target == objectIncarnationOf s object).map
        (fun entry => ⟨.present, true, entry.2.metadata⟩) := by
  unfold lifecycleCandidates recordsOf
  cases s.lifecycleRecords[object]? <;> cases s.reincarnationRecords[object]? <;> rfl

/-! ### Cited claims -/

theorem mem_sortedClaims {l : List Attestation} {c : ClaimProvenance} :
    c ∈ sortedClaims l ↔ ∃ a ∈ l, toProvenance a = c := by
  unfold sortedClaims
  rw [mem_sortBy, List.mem_map]

theorem sortedClaims_ne_nil {l : List Attestation} (h : l ≠ []) : sortedClaims l ≠ [] := by
  obtain ⟨a, ha⟩ := List.exists_mem_of_ne_nil l h
  exact List.ne_nil_of_mem (mem_sortedClaims.mpr ⟨a, ha, rfl⟩)

/-! ### The records of a side -/

section Side

variable (s : RegistryState) (subject : ObjectSideRef) (policy : ValidationPolicy)

/-- A side's record with the source incarnation it belongs to. -/
abbrev SideRecord := SourceIncarnationKey × Folded SubjectValue

/-- The live records of a registered object's side, against its current incarnation. -/
def sideRecords : List SideRecord :=
  if objectExists s subject.object then
    (recordsOf s.subjectRecords subject).filter fun entry =>
      subjectRecordLive s entry.1 entry.2 policy &&
        entry.2.value.objectIncarnation == objectIncarnationOf s subject.object
  else []

/-- Those that say the side is attached, or those that say it is not. -/
def sideClaims (attached : Bool) : List SideRecord :=
  (sideRecords s subject policy).filter (·.2.value.attached == attached)

/-- The highest authority of either kind. -/
def sideAuthority (attached : Bool) : Authority :=
  bestAuthority ((sideClaims s subject policy attached).map (·.2.metadata.authority))

/-- Whether the claims of one kind were asserted in this lifetime, those of a lower authority
included. -/
def kindValidation (attached : Bool) : ValidationState :=
  combineValidation ((sideClaims s subject policy attached).any (·.2.metadata.assertedInLifetime))
    ((sideClaims s subject policy attached).all (·.2.metadata.assertedInLifetime))

/-- The claims of one kind prevail over those of the other. -/
def sideWins (attached : Bool) : Bool :=
  !(sideClaims s subject policy attached).isEmpty &&
    ((sideClaims s subject policy (!attached)).isEmpty ||
      sideAuthority s subject policy (!attached) < sideAuthority s subject policy attached)

/-- The attachments of the highest authority. -/
def topAttachments : List SideRecord :=
  (sideClaims s subject policy true).filter
    (·.2.metadata.authority == sideAuthority s subject policy true)

/-- The ports of a side whose attachments prevail. -/
def sidePorts : List PortRef :=
  if sideWins s subject policy true then
    unique (sortBy portLess ((topAttachments s subject policy).map (·.2.value.port)))
  else []

/-- What a list of eligible claims amounts to. -/
def claimSet (eligible : List Attestation) : ClaimSet :=
  if eligible.isEmpty then {}
  else
    let authority := bestAuthority (eligible.map (·.authority))
    { any := true
      authority := authority
      validation := combineValidation (eligible.any (·.assertedInLifetime))
        (eligible.all (·.assertedInLifetime))
      top := sortBy topOrder (eligible.filter (·.authority == authority))
      lower := sortBy lowerOrder (eligible.filter (·.authority != authority))
      lowerTotal := UInt32.ofNat (eligible.filter (·.authority != authority)).length }

/-- The derivation of a side from its live records. -/
def derivationFrom (current : ObjectIncarnation) (records : List SideRecord) : SubjectDerivation :=
  let attached := claimSet ((records.filter (·.2.value.attached == true)).map (·.2.metadata))
  let detached := claimSet ((records.filter (·.2.value.attached == false)).map (·.2.metadata))
  let derivation : SubjectDerivation := { incarnation := current }
  if !attached.any && !detached.any then derivation
  else
    let derivation := { derivation with hasRecords := true }
    let attachedWins := attached.any && (!detached.any || detached.authority < attached.authority)
    let detachedWins := detached.any && (!attached.any || attached.authority < detached.authority)
    if !attachedWins && !detachedWins then
      { derivation with
        state := .conflicting
        authority := if attached.any then attached.authority else detached.authority
        validation := combineValidation
          ((attached.any && attached.validation != .unvalidated) ||
            (detached.any && detached.validation != .unvalidated))
          (attached.validation == .validated || detached.validation == .validated) }
    else if detachedWins then
      { derivation with
        state := .empty, authority := detached.authority, validation := detached.validation }
    else
      let winners := ((records.filter (·.2.value.attached == true)).filter
        (·.2.metadata.authority == attached.authority)).map (·.2)
      let ports := unique (sortBy portLess (winners.map (·.value.port)))
      { derivation with
        authority := attached.authority
        validation := attached.validation
        top := attached.top
        ports := ports
        slots := winners.map (·.value.slot)
        state := if ports.length > 1 then .conflicting else .attached }

theorem claimSet_spec (eligible : List Attestation) :
    (claimSet eligible).any = !eligible.isEmpty ∧
      (eligible ≠ [] → (claimSet eligible).authority = bestAuthority (eligible.map (·.authority))) ∧
      (claimSet eligible).top =
        sortBy topOrder (eligible.filter (·.authority == bestAuthority (eligible.map (·.authority)))) ∧
      (claimSet eligible).validation = combineValidation (eligible.any (·.assertedInLifetime))
        (eligible.all (·.assertedInLifetime)) := by
  cases eligible with
  | nil => exact ⟨rfl, fun hne => absurd rfl hne, rfl, rfl⟩
  | cons a l => exact ⟨rfl, fun _ => rfl, rfl, rfl⟩

theorem claimSet_sideClaims (attached : Bool) :
    (claimSet ((sideClaims s subject policy attached).map (·.2.metadata))).any =
        !(sideClaims s subject policy attached).isEmpty ∧
      (sideClaims s subject policy attached ≠ [] →
        (claimSet ((sideClaims s subject policy attached).map (·.2.metadata))).authority =
          sideAuthority s subject policy attached) ∧
      (claimSet ((sideClaims s subject policy attached).map (·.2.metadata))).top =
        sortBy topOrder (((sideClaims s subject policy attached).filter (·.2.metadata.authority ==
          sideAuthority s subject policy attached)).map (·.2.metadata)) ∧
      (claimSet ((sideClaims s subject policy attached).map (·.2.metadata))).validation =
        kindValidation s subject policy attached := by
  obtain ⟨hany, hauthority, htop, hvalidation⟩ :=
    claimSet_spec ((sideClaims s subject policy attached).map (·.2.metadata))
  refine ⟨?_, ?_, ?_, ?_⟩
  · rw [List.isEmpty_map] at hany
    exact hany
  · intro hne
    have hmap := hauthority (by simpa using hne)
    rw [List.map_map] at hmap
    exact hmap
  · rw [List.map_map, List.filter_map] at htop
    exact htop
  · rw [List.any_map, List.all_map] at hvalidation
    exact hvalidation

/-- Which kind of claims prevails, as the code compares the two. -/
theorem sideWins_claimSet (attached : Bool) :
    ((claimSet ((sideClaims s subject policy attached).map (·.2.metadata))).any &&
      (!(claimSet ((sideClaims s subject policy (!attached)).map (·.2.metadata))).any ||
        decide ((claimSet ((sideClaims s subject policy (!attached)).map (·.2.metadata))).authority <
          (claimSet ((sideClaims s subject policy attached).map (·.2.metadata))).authority))) =
      sideWins s subject policy attached := by
  obtain ⟨hany, hauthority, -⟩ := claimSet_sideClaims s subject policy attached
  obtain ⟨hany', hauthority', -⟩ := claimSet_sideClaims s subject policy (!attached)
  unfold sideWins
  rw [hany, hany', Bool.not_not]
  by_cases hclaims : sideClaims s subject policy attached = []
  · simp [hclaims]
  by_cases hother : sideClaims s subject policy (!attached) = []
  · simp [hother]
  · rw [hauthority hclaims, hauthority' hother]

section Stored

variable {s subject} {records : OrdMap SourceIncarnationKey (Folded SubjectValue)}

theorem subjectClaims_eq (hexists : objectExists s subject.object = true)
    (hrecords : s.subjectRecords[subject]? = some records) (attached : Bool) :
    subjectClaims s records policy (objectIncarnationOf s subject.object) attached =
      claimSet ((sideClaims s subject policy attached).map (·.2.metadata)) := by
  unfold subjectClaims collectClaims claimSet
  have hfilter : (records.toList.filter fun entry => participates entry.2.metadata policy &&
      (subjectRecordLive s entry.1 entry.2 policy &&
        (entry.2.value.objectIncarnation == objectIncarnationOf s subject.object &&
          entry.2.value.attached == attached))).map (·.2.metadata) =
      (sideClaims s subject policy attached).map (·.2.metadata) := by
    unfold sideClaims sideRecords recordsOf
    rw [if_pos hexists, hrecords]
    simp only [List.filter_filter]
    congr 1
    refine List.filter_congr fun entry _ => ?_
    unfold subjectRecordLive
    cases participates entry.2.metadata policy <;> cases sessionIsFenced s entry.1 <;>
      cases entry.2.value.objectIncarnation == objectIncarnationOf s subject.object <;>
      cases entry.2.value.attached == attached <;> rfl
  rw [hfilter]

theorem winningAttachments_eq (hexists : objectExists s subject.object = true)
    (hrecords : s.subjectRecords[subject]? = some records) (authority : Authority) :
    winningAttachments s records policy (objectIncarnationOf s subject.object) authority =
      ((sideClaims s subject policy true).filter (·.2.metadata.authority == authority)).map (·.2) := by
  unfold winningAttachments
  congr 1
  unfold sideClaims sideRecords recordsOf
  rw [if_pos hexists, hrecords]
  simp only [List.filter_filter]
  refine List.filter_congr fun entry _ => ?_
  cases subjectRecordLive s entry.1 entry.2 policy <;>
    cases entry.2.value.objectIncarnation == objectIncarnationOf s subject.object <;>
    cases entry.2.value.attached <;> cases entry.2.metadata.authority == authority <;> rfl

end Stored

/-- **A side's derivation reads its live records only.** -/
theorem deriveSubject_eq_derivationFrom :
    deriveSubject s subject policy =
      derivationFrom (objectIncarnationOf s subject.object) (sideRecords s subject policy) := by
  unfold deriveSubject
  cases hexists : objectExists s subject.object with
  | false =>
    unfold sideRecords
    rw [hexists]
    rfl
  | true =>
    cases hrecords : s.subjectRecords[subject]? with
    | none =>
      unfold sideRecords recordsOf
      rw [hexists, hrecords]
      rfl
    | some records =>
      simp only [subjectClaims_eq policy hexists hrecords, winningAttachments_eq policy hexists hrecords,
        Bool.not_true, Bool.false_eq_true, if_false]
      rfl

variable {s subject}

variable {policy}

theorem sideClaims_of_nil (h : sideRecords s subject policy = []) (attached : Bool) :
    sideClaims s subject policy attached = [] := by
  unfold sideClaims
  rw [h]
  rfl

theorem sideRecords_eq_nil :
    sideRecords s subject policy = [] ↔
      sideClaims s subject policy true = [] ∧ sideClaims s subject policy false = [] := by
  constructor
  · exact fun h => ⟨sideClaims_of_nil h true, sideClaims_of_nil h false⟩
  · rintro ⟨ht, hf⟩
    rw [List.eq_nil_iff_forall_not_mem] at ht hf ⊢
    intro record hrecord
    cases ha : record.2.value.attached with
    | true => exact ht record (List.mem_filter.mpr ⟨hrecord, by simp [ha]⟩)
    | false => exact hf record (List.mem_filter.mpr ⟨hrecord, by simp [ha]⟩)

theorem sideClaims_ne_nil_of_wins (h : sideWins s subject policy attached = true) :
    sideClaims s subject policy attached ≠ [] := by
  intro hnil
  simp [sideWins, hnil] at h

/-- Where there are no claims there is nothing asserted. -/
theorem isEmpty_and_kindValidation (attached : Bool) :
    (!(sideClaims s subject policy attached).isEmpty &&
      kindValidation s subject policy attached != .unvalidated) =
        (kindValidation s subject policy attached != .unvalidated) := by
  cases hclaims : sideClaims s subject policy attached with
  | nil => simp [kindValidation, hclaims, combineValidation]
  | cons record records => rfl

/-- Not both kinds of claims prevail. -/
theorem sideWins_false_of_true (h : sideWins s subject policy true = true) :
    sideWins s subject policy false = false := by
  have hne := sideClaims_ne_nil_of_wins h
  unfold sideWins at h ⊢
  simp only [Bool.not_true, Bool.not_false, Bool.and_eq_true, Bool.not_eq_true', Bool.or_eq_true,
    decide_eq_true_eq] at h ⊢
  rcases h.2 with hnil | hlt
  · simp [hnil]
  · have hlt' : ¬ sideAuthority s subject policy true < sideAuthority s subject policy false :=
      not_lt.mpr (le_of_lt hlt)
    simp [hne, hlt']

variable (s subject policy)

/-- The state of a side in closed form. -/
def sideState : PortAttachmentState :=
  if (sideRecords s subject policy).isEmpty then .unknown
  else if sideWins s subject policy true then
    if (sidePorts s subject policy).length > 1 then .conflicting else .attached
  else if sideWins s subject policy false then .empty
  else .conflicting

/-- The validation of a side in closed form. -/
def sideValidation : ValidationState :=
  if sideWins s subject policy true then kindValidation s subject policy true
  else if sideWins s subject policy false then kindValidation s subject policy false
  else combineValidation
    (kindValidation s subject policy true != .unvalidated ||
      kindValidation s subject policy false != .unvalidated)
    (kindValidation s subject policy true == .validated ||
      kindValidation s subject policy false == .validated)

/-- **A side's derivation in closed form.** -/
theorem deriveSubject_eq :
    (deriveSubject s subject policy).state = sideState s subject policy ∧
      (deriveSubject s subject policy).ports = sidePorts s subject policy ∧
      (deriveSubject s subject policy).slots = (if sideWins s subject policy true then
        (topAttachments s subject policy).map (·.2.value.slot) else []) ∧
      (deriveSubject s subject policy).top = (if sideWins s subject policy true then
        sortBy topOrder ((topAttachments s subject policy).map (·.2.metadata)) else []) ∧
      (deriveSubject s subject policy).incarnation = objectIncarnationOf s subject.object ∧
      (deriveSubject s subject policy).hasRecords = !(sideRecords s subject policy).isEmpty ∧
      (deriveSubject s subject policy).validation = sideValidation s subject policy := by
  obtain ⟨hany, hauthority, htop, hvalidation⟩ := claimSet_sideClaims s subject policy true
  obtain ⟨hany', hauthority', -, hvalidation'⟩ := claimSet_sideClaims s subject policy false
  have hwins := sideWins_claimSet s subject policy true
  have hwins' := sideWins_claimSet s subject policy false
  rw [Bool.not_true] at hwins
  rw [Bool.not_false] at hwins'
  rw [deriveSubject_eq_derivationFrom]
  unfold derivationFrom
  rw [show (sideRecords s subject policy).filter (·.2.value.attached == true) =
    sideClaims s subject policy true from rfl, show (sideRecords s subject policy).filter
    (·.2.value.attached == false) = sideClaims s subject policy false from rfl]
  dsimp only
  generalize claimSet ((sideClaims s subject policy true).map (·.2.metadata)) = a at *
  generalize claimSet ((sideClaims s subject policy false).map (·.2.metadata)) = d at *
  by_cases hnil : sideRecords s subject policy = []
  · rw [sideClaims_of_nil hnil] at hany hany'
    simp [hany, hany', sideState, sidePorts, sideValidation, kindValidation, sideWins, hnil,
      sideClaims_of_nil hnil, combineValidation]
  · have hsome : (!a.any && !d.any) = false := by
      rw [hany, hany', Bool.not_not, Bool.not_not]
      rw [sideRecords_eq_nil] at hnil
      simpa using fun h => hnil h
    have hempty : (sideRecords s subject policy).isEmpty = false := by simpa using hnil
    simp only [hsome, hwins, hwins', Bool.false_eq_true, if_false]
    cases ht : sideWins s subject policy true with
    | true =>
      have hf := sideWins_false_of_true ht
      rw [hauthority (sideClaims_ne_nil_of_wins ht)]
      simp only [hf, sideState, sidePorts, ht, hempty, List.map_map, if_true, Bool.not_true,
        Bool.false_and, Bool.false_eq_true, if_false]
      refine ⟨rfl, rfl, rfl, htop, trivial, rfl, ?_⟩
      rw [hvalidation, sideValidation, if_pos ht]
    | false =>
      cases hf : sideWins s subject policy false with
      | true => simp [sideState, sidePorts, sideValidation, hvalidation', ht, hf, hempty]
      | false =>
        simp [sideState, sidePorts, sideValidation, hany, hany', hvalidation, hvalidation', ht, hf, hempty,
          isEmpty_and_kindValidation]

variable {s subject policy} in
/-- Where a side has ports, its attachments prevail. -/
theorem sideWins_of_sidePorts (h : 1 < (sidePorts s subject policy).length) :
    sideWins s subject policy true = true := by
  by_contra hne
  unfold sidePorts at h
  rw [if_neg hne] at h
  exact absurd h (by simp)

/-- A side is double booked when the attachments that prevail name more than one port. -/
theorem subjectDoubleBooked_eq :
    subjectDoubleBooked s subject policy = decide ((sidePorts s subject policy).length > 1) := by
  obtain ⟨hstate, hports, -⟩ := deriveSubject_eq s subject policy
  unfold subjectDoubleBooked
  dsimp only
  rw [hstate, hports]
  by_cases hlen : (sidePorts s subject policy).length > 1
  · have hwins := sideWins_of_sidePorts hlen
    have hrec : (sideRecords s subject policy).isEmpty = false := by
      rw [List.isEmpty_eq_false_iff]
      intro hnil
      exact sideClaims_ne_nil_of_wins hwins (sideClaims_of_nil hnil true)
    simp [sideState, hwins, hrec, hlen]
  · simp [hlen]

variable {s subject policy}

theorem mem_sideRecords :
    record ∈ sideRecords s subject policy ↔
      objectExists s subject.object = true ∧
      OrdMap.find₂ s.subjectRecords subject record.1 = some record.2 ∧
      sessionIsFenced s record.1 = false ∧ participates record.2.metadata policy = true ∧
      record.2.value.objectIncarnation = objectIncarnationOf s subject.object := by
  unfold sideRecords recordsOf OrdMap.find₂
  cases objectExists s subject.object with
  | false => simp
  | true =>
    cases s.subjectRecords[subject]? with
    | none => simp
    | some records =>
      simp only [if_true, List.mem_filter, Option.bind_some, true_and, subjectRecordLive,
        Bool.and_eq_true, Bool.not_eq_true', beq_iff_eq, and_assoc]
      rw [OrdMap.mem_toList]

theorem mem_sideClaims :
    record ∈ sideClaims s subject policy attached ↔
      record ∈ sideRecords s subject policy ∧ record.2.value.attached = attached := by
  unfold sideClaims
  rw [List.mem_filter, beq_iff_eq]

theorem le_sideAuthority (h : record ∈ sideClaims s subject policy attached) :
    record.2.metadata.authority ≤ sideAuthority s subject policy attached := by
  unfold sideAuthority
  exact le_bestAuthority (List.mem_map_of_mem h)

theorem exists_sideAuthority (h : sideClaims s subject policy attached ≠ []) :
    ∃ record ∈ sideClaims s subject policy attached,
      record.2.metadata.authority = sideAuthority s subject policy attached := by
  obtain ⟨record, hrecord, heq, -⟩ := exists_best h
  exact ⟨record, hrecord, heq⟩

theorem topAttachments_ne_nil (h : sideClaims s subject policy true ≠ []) :
    topAttachments s subject policy ≠ [] := by
  obtain ⟨record, hrecord, heq⟩ := exists_sideAuthority h
  exact List.ne_nil_of_mem (List.mem_filter.mpr ⟨hrecord, beq_iff_eq.mpr heq⟩)

theorem mem_sidePorts {port : PortRef} :
    port ∈ sidePorts s subject policy ↔ sideWins s subject policy true = true ∧
      ∃ record ∈ topAttachments s subject policy, record.2.value.port = port := by
  unfold sidePorts
  split
  · rename_i hwins
    rw [mem_unique, mem_sortBy, List.mem_map]
    exact ⟨fun h => ⟨hwins, h⟩, And.right⟩
  · rename_i hwins
    exact ⟨fun h => absurd h (by simp), fun h => absurd h.1 hwins⟩

/-- The claims of one kind prevail when every claim of the other has a lower authority. -/
theorem sideWins_iff :
    sideWins s subject policy attached = true ↔ sideClaims s subject policy attached ≠ [] ∧
      ∀ record ∈ sideClaims s subject policy (!attached),
        record.2.metadata.authority < sideAuthority s subject policy attached := by
  unfold sideWins
  simp only [Bool.and_eq_true, Bool.not_eq_true', List.isEmpty_eq_false_iff, Bool.or_eq_true,
    List.isEmpty_iff, decide_eq_true_eq]
  refine and_congr_right fun _ => ⟨?_, ?_⟩
  · rintro (hnil | hlt) record hrecord
    · rw [hnil] at hrecord
      exact absurd hrecord (by simp)
    · exact lt_of_le_of_lt (le_sideAuthority hrecord) hlt
  · intro hall
    by_cases hnil : sideClaims s subject policy (!attached) = []
    · exact .inl hnil
    · obtain ⟨record, hrecord, heq⟩ := exists_sideAuthority hnil
      rw [← heq]
      exact .inr (hall record hrecord)

theorem sideWins_true_iff :
    sideWins s subject policy true = true ↔ sideClaims s subject policy true ≠ [] ∧
      ∀ record ∈ sideClaims s subject policy false,
        record.2.metadata.authority < sideAuthority s subject policy true :=
  sideWins_iff

end Side

end CableRegistry
