import CableRegistry.SideAnswers
import CableRegistry.Views

/-!
# The parts of a port view

`derivePortView_eq` writes the view of a port in closed form: the live records of the
highest authority (`topPortRecords`) split into those that say a slot is empty and those
that say a side sits in it (`emptyRecords`, `occupiedRecords`), and the sides they name
(`occupants`) give one edge each.  The later modules read a port view through it.
-/

namespace CableRegistry

variable {record : LiveRecord} {subject : ObjectSideRef}

section Parts

variable (s : RegistryState) (limits : Limits) (port : PortRef) (policy : ValidationPolicy)

/-- The highest authority of a live record of the port. -/
def topAuthority : Authority :=
  bestAuthority ((livePortRecords s port policy).map (·.metadata.authority))

/-- The live records of the highest authority. -/
def topPortRecords : List LiveRecord :=
  (livePortRecords s port policy).filter (·.metadata.authority == topAuthority s port policy)

/-- The live records of a lower authority. -/
def lowerPortRecords : List LiveRecord :=
  (livePortRecords s port policy).filter (·.metadata.authority != topAuthority s port policy)

/-- Those of the highest authority that say a slot is empty. -/
def emptyRecords : List LiveRecord := (topPortRecords s port policy).filter (·.2.value.empty)

/-- Those of the highest authority that say a side sits in a slot. -/
def occupiedRecords : List LiveRecord := (topPortRecords s port policy).filter (!·.2.value.empty)

/-- The sides that sit in the port. -/
def occupants : List ObjectSideRef :=
  unique (sortBy subjectLess ((occupiedRecords s port policy).map (·.2.value.subject)))

def tooManyOccupants : Bool :=
  (occupants s port policy).length > (portCapabilityOf s port).maxSimultaneousAttachments.toNat

/-- The claims about the port contradict each other. -/
def portConflicting : Bool :=
  tooManyOccupants s port policy || !(emptyRecords s port policy).isEmpty ||
    (occupants s port policy).any (subjectDoubleBooked s · policy)

def portContext : PortContext where
  port := port
  capability := portCapabilityOf s port
  best := topAuthority s port policy
  conflicting := portConflicting s port policy
  overridden := sortedClaims
    (((lowerPortRecords s port policy).take limits.maxOverriddenReported.toNat).map (·.metadata))
  overriddenTotal := UInt32.ofNat (lowerPortRecords s port policy).length

def portEdges : List AttachmentEdge :=
  (occupants s port policy).map
    (portEdge s (portContext s limits port policy) (occupiedRecords s port policy))

def tooManyNote : ConflictNote where
  reason := .tooManyAttachments
  port := port
  detail := toString (occupants s port policy).length ++
    " distinct subjects claim a port that admits " ++
    toString (portCapabilityOf s port).maxSimultaneousAttachments.toNat
  claims := sortedClaims ((occupiedRecords s port policy).map (·.metadata))

def tooManyNotes : List ConflictNote :=
  if tooManyOccupants s port policy then [tooManyNote s port policy] else []

def mixedNote : ConflictNote where
  reason := .emptyAndOccupied
  port := port
  detail := "equal authority asserts both that the port is empty and that it is occupied"
  claims := sortedClaims ((topPortRecords s port policy).map (·.metadata))

def mixedNotes : List ConflictNote :=
  if !(emptyRecords s port policy).isEmpty then [mixedNote s port policy] else []

def doubleBookedNotes : List ConflictNote :=
  ((occupants s port policy).filter (subjectDoubleBooked s · policy)).map
    (doubleBookedNote s policy port)

theorem pairwise_occupants :
    (occupants s port policy).Pairwise (fun a b => compare a b = .lt) :=
  pairwise_unique (pairwise_sortBy (fun _ _ => rfl) _)

/-- **The view of a port in closed form.** -/
theorem derivePortView_eq :
    derivePortView s limits port policy =
      { port := port
        capability := portCapabilityOf s port
        state := if (occupiedRecords s port policy).isEmpty then
            if (emptyRecords s port policy).isEmpty then .unknown else .empty
          else if portConflicting s port policy then .conflicting else .attached
        validation := combineValidation
          ((topPortRecords s port policy).any (·.metadata.assertedInLifetime))
          ((topPortRecords s port policy).all (·.metadata.assertedInLifetime))
        edges := portEdges s limits port policy
        conflicts := if (occupiedRecords s port policy).isEmpty then [] else
          (portEdges s limits port policy).flatMap compatibilityNotes ++ tooManyNotes s port policy ++
            mixedNotes s port policy ++ doubleBookedNotes s port policy
        emptinessClaims := sortedClaims ((emptyRecords s port policy).map (·.metadata))
        emptinessClaimsTotal := UInt32.ofNat (emptyRecords s port policy).length } := by
  have hsorted : sortBy (fun left right => subjectLess left.subject right.subject)
      (portEdges s limits port policy) = portEdges s limits port policy := by
    have hmap : ∀ f : ObjectSideRef → AttachmentEdge, (∀ subject, (f subject).subject = subject) →
        sortBy (fun left right => subjectLess left.subject right.subject)
          ((occupants s port policy).map f) = (sortBy subjectLess (occupants s port policy)).map f :=
      fun f hf => sortBy_map f _ fun a _ b _ => by rw [hf, hf]
    have hself : sortBy subjectLess (occupants s port policy) = occupants s port policy :=
      sortBy_eq_self (fun _ _ => rfl) (pairwise_occupants s port policy)
    unfold portEdges
    rw [hmap _ fun _ => rfl, hself]
  unfold derivePortView
  by_cases hlive : (livePortRecords s port policy).isEmpty
  · have hnil : livePortRecords s port policy = [] := List.isEmpty_iff.mp hlive
    have htop : topPortRecords s port policy = [] := by simp [topPortRecords, hnil]
    have hocc : occupiedRecords s port policy = [] := by simp [occupiedRecords, htop]
    have hemp : emptyRecords s port policy = [] := by simp [emptyRecords, htop]
    have hedges : portEdges s limits port policy = [] := by
      simp [portEdges, occupants, hocc, sortBy, unique]
    simp only [hlive, if_true, htop, hocc, hemp, hedges, List.isEmpty_nil]
    rfl
  · by_cases hocc : (occupiedRecords s port policy).isEmpty
    · have hnil : occupiedRecords s port policy = [] := List.isEmpty_iff.mp hocc
      have hedges : portEdges s limits port policy = [] := by
        simp [portEdges, occupants, hnil, sortBy, unique]
      have hocc' : (((livePortRecords s port policy).filter (·.metadata.authority ==
          bestAuthority ((livePortRecords s port policy).map (·.metadata.authority)))).filter
          (!·.2.value.empty)).isEmpty = true := hocc
      simp only [hlive, hocc, hocc', hedges, if_true]
      rfl
    · have hocc' : (((livePortRecords s port policy).filter (·.metadata.authority ==
          bestAuthority ((livePortRecords s port policy).map (·.metadata.authority)))).filter
          (!·.2.value.empty)).isEmpty = false := Bool.eq_false_of_not_eq_true hocc
      have hstate : ∀ b : Bool, ((if b then PortAttachmentState.conflicting else .attached) ==
          PortAttachmentState.conflicting) = b := by
        intro b
        cases b <;> rfl
      simp only [hlive, hocc, hocc', hstate, Bool.false_eq_true, if_false, PortView.mk.injEq]
      exact ⟨trivial, rfl, rfl, trivial, hsorted, rfl, rfl, rfl⟩

variable {s port policy}

/-- **The view reads the live records, the capability of the port and the sides that sit in it.** -/
theorem derivePortView_congr {s' : RegistryState}
    (hlive : livePortRecords s' port policy = livePortRecords s port policy)
    (hcapability : portCapabilityOf s' port = portCapabilityOf s port)
    (hsubject : ∀ subject ∈ occupants s port policy,
      deriveSubject s' subject policy = deriveSubject s subject policy ∧
        sideDescriptorOf s' subject.object subject.side =
          sideDescriptorOf s subject.object subject.side) :
    derivePortView s' limits port policy = derivePortView s limits port policy := by
  have hauthority : topAuthority s' port policy = topAuthority s port policy := by
    unfold topAuthority
    rw [hlive]
  have htop : topPortRecords s' port policy = topPortRecords s port policy := by
    unfold topPortRecords
    rw [hlive, hauthority]
  have hlower : lowerPortRecords s' port policy = lowerPortRecords s port policy := by
    unfold lowerPortRecords
    rw [hlive, hauthority]
  have hempty : emptyRecords s' port policy = emptyRecords s port policy := by
    unfold emptyRecords
    rw [htop]
  have hoccupied : occupiedRecords s' port policy = occupiedRecords s port policy := by
    unfold occupiedRecords
    rw [htop]
  have hoccupants : occupants s' port policy = occupants s port policy := by
    unfold occupants
    rw [hoccupied]
  have hbooked : ∀ subject ∈ occupants s port policy,
      subjectDoubleBooked s' subject policy = subjectDoubleBooked s subject policy := by
    intro subject hmem
    unfold subjectDoubleBooked
    rw [(hsubject subject hmem).1]
  have hmany : tooManyOccupants s' port policy = tooManyOccupants s port policy := by
    unfold tooManyOccupants
    rw [hoccupants, hcapability]
  have hconflicting : portConflicting s' port policy = portConflicting s port policy := by
    unfold portConflicting
    rw [hmany, hempty, hoccupants]
    congr 1
    rw [Bool.eq_iff_iff, List.any_eq_true, List.any_eq_true]
    refine exists_congr fun subject => and_congr_right fun hmem => ?_
    rw [hbooked subject hmem]
  have hedges : portEdges s' limits port policy = portEdges s limits port policy := by
    unfold portEdges
    rw [hoccupants]
    refine List.map_congr_left fun subject hmem => ?_
    unfold portEdge portContext
    rw [hoccupied, hcapability, hauthority, hconflicting, hlower, (hsubject subject hmem).2]
  have hnotes : doubleBookedNotes s' port policy = doubleBookedNotes s port policy := by
    unfold doubleBookedNotes
    rw [hoccupants, List.filter_congr hbooked]
    refine List.map_congr_left fun subject hmem => ?_
    unfold doubleBookedNote
    rw [(hsubject subject (List.mem_filter.mp hmem).1).1]
  rw [derivePortView_eq, derivePortView_eq, hcapability, hoccupied, hempty, hconflicting, htop,
    hedges, hnotes]
  unfold tooManyNotes mixedNotes tooManyNote mixedNote
  rw [hmany, hoccupants, hcapability, hoccupied, hempty, htop]

theorem mem_livePortRecords :
    record ∈ livePortRecords s port policy ↔
      OrdMap.find₂ s.portRecords port record.1 = some record.2 ∧
        portRecordLive s port policy record.1 record.2 = true := by
  unfold livePortRecords OrdMap.find₂
  cases s.portRecords[port]? with
  | none => simp
  | some records =>
    simp only [List.mem_filter, Option.bind_some]
    rw [OrdMap.mem_toList]

theorem mem_topPortRecords :
    record ∈ topPortRecords s port policy ↔ record ∈ livePortRecords s port policy ∧
      ∀ other ∈ livePortRecords s port policy,
        other.metadata.authority ≤ record.metadata.authority := by
  unfold topPortRecords topAuthority
  exact mem_filter_best

theorem mem_occupiedRecords :
    record ∈ occupiedRecords s port policy ↔
      record ∈ topPortRecords s port policy ∧ record.2.value.empty = false := by
  unfold occupiedRecords
  rw [List.mem_filter, Bool.not_eq_true']

theorem mem_emptyRecords :
    record ∈ emptyRecords s port policy ↔
      record ∈ topPortRecords s port policy ∧ record.2.value.empty = true := by
  unfold emptyRecords
  rw [List.mem_filter]

theorem mem_occupants :
    subject ∈ occupants s port policy ↔
      ∃ record ∈ occupiedRecords s port policy, record.2.value.subject = subject := by
  unfold occupants
  rw [mem_unique, mem_sortBy, List.mem_map]

theorem occupants_eq_nil : occupants s port policy = [] ↔ occupiedRecords s port policy = [] := by
  rw [List.eq_nil_iff_forall_not_mem, List.eq_nil_iff_forall_not_mem]
  constructor
  · intro h record hrecord
    exact h _ (mem_occupants.mpr ⟨record, hrecord, rfl⟩)
  · intro h subject hsubject
    obtain ⟨record, hrecord, -⟩ := mem_occupants.mp hsubject
    exact h record hrecord

theorem occupants_nodup : (occupants s port policy).Nodup :=
  nodup_of_pairwise_lt (pairwise_occupants s port policy)

end Parts

end CableRegistry
