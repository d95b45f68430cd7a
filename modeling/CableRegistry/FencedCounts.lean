import CableRegistry.Fencing

/-!
# What an open reports as fenced

The open of a session of a higher incarnation reports how many claims it fences.  The registry
counts every claim of an earlier incarnation of the source.  Those of the incarnation that was
current until now are fenced by the call.  Those of incarnations before it were fenced already,
by the opens in between, and are counted again.

* `countOwned_eq`: the sums over six maps count a list, `claimOwners`.
* `fencedClaims_eq`: the report is the number of claims newly fenced plus the number of claims of
  the source that were fenced before, modulo `2 ^ 64`.
* `fenced_counted_once_iff`: it is the number of claims newly fenced exactly when the second number
  vanishes and the first fits.
-/

open Std

namespace CableRegistry

/-! ### The claims that fencing applies to -/

section Owners

variable {κ ι ν : Type} [Ord κ] [TransOrd κ] [Ord ι] [TransOrd ι]

/-- The owner of each claim of a group, once for the winner and once for each entry of a ring. -/
def groupOwners (owner : ι → SourceIncarnationKey) (groups : Groups κ ι ν) :
    List SourceIncarnationKey :=
  groups.toList.flatMap fun entry => entry.2.toList.flatMap fun record =>
    List.replicate (1 + record.2.superseded.length) (owner record.1)

/-- A loop that adds up counts. -/
theorem foldl_add_countP {α β : Type} (p : β → Bool) (parts : α → List β) (l : List α) (total : UInt64) :
    l.foldl (fun total x => total + UInt64.ofNat ((parts x).countP p)) total =
      total + UInt64.ofNat ((l.flatMap parts).countP p) := by
  induction l generalizing total with
  | nil => simp
  | cons x l ih =>
    rw [List.foldl_cons, ih, List.flatMap_cons, List.countP_append, UInt64.ofNat_add,
      UInt64.add_assoc]

/-- **A sum over a group counts its owners.** -/
theorem sumGroups_eq (owner : ι → SourceIncarnationKey) (selected : SourceIncarnationKey → Bool)
    (groups : Groups κ ι ν) :
    sumGroups groups (fun _ i record => if selected (owner i) then record.claimCount else 0) =
      UInt64.ofNat ((groupOwners owner groups).countP selected) := by
  have hrecord : ∀ record : ι × Folded ν,
      (if selected (owner record.1) = true then record.2.claimCount else 0) = UInt64.ofNat
        ((List.replicate (1 + record.2.superseded.length) (owner record.1)).countP selected) := by
    intro record
    rw [List.countP_replicate]
    split
    · rw [UInt64.ofNat_add]
      rfl
    · rfl
  unfold sumGroups groupOwners
  simp only [hrecord, foldl_add_countP, UInt64.zero_add]

end Owners

/-- The owner of each claim about a side, a slot, a lifecycle, a reincarnation or a capability. -/
def claimOwners (s : RegistryState) : List SourceIncarnationKey :=
  groupOwners id s.subjectRecords ++ groupOwners id s.lifecycleRecords ++
    groupOwners id s.reincarnationRecords ++ groupOwners id s.objectCapabilityRecords ++
    groupOwners id s.portCapabilityRecords ++ groupOwners PortSlotKey.owner s.portRecords

theorem countOwned_eq (s : RegistryState) (selected : SourceIncarnationKey → Bool) :
    countOwned s selected = UInt64.ofNat ((claimOwners s).countP selected) := by
  unfold countOwned scanOwners claimOwners
  simp only [List.countP_append, UInt64.ofNat_add, ← sumGroups_eq]
  rfl

/-! ### An open -/

/-- The session was not fenced and is now. -/
def newlyFenced (s s' : RegistryState) (owner : SourceIncarnationKey) : Bool :=
  !sessionIsFenced s owner && sessionIsFenced s' owner

/-- The session belongs to the source and is fenced. -/
def fencedOf (s : RegistryState) (source : SourceId) (owner : SourceIncarnationKey) : Bool :=
  owner.source == source && sessionIsFenced s owner

/-- The session belongs to the source, is older than the incarnation and is not fenced. -/
def unfencedBefore (s : RegistryState) (key owner : SourceIncarnationKey) : Bool :=
  owner.source == key.source && decide (owner.incarnation < key.incarnation) && !sessionIsFenced s owner

/-- The incarnation a source has reached. -/
def reachedIncarnation (s : RegistryState) (source : SourceId) : Incarnation :=
  ((s.sources[source]?).map (·.currentIncarnation)).getD 0

section Open

variable {s : RegistryState} {d : SourceDescriptor} {i : Incarnation} {t : Timestamp}

theorem newlyFenced_openState (owner : SourceIncarnationKey) :
    newlyFenced s (Registry.openState s d i t) owner = unfencedBefore s ⟨d.id, i⟩ owner := by
  unfold newlyFenced unfencedBefore
  rw [sessionIsFenced_openState]
  cases sessionIsFenced s owner <;> simp

theorem sessionIsFenced_iff_lt (owner : SourceIncarnationKey) :
    sessionIsFenced s owner = true ↔ owner.incarnation < reachedIncarnation s owner.source := by
  unfold sessionIsFenced reachedIncarnation
  cases s.sources[owner.source]? with
  | none => simp
  | some source => simp

/-- **An earlier incarnation of the source is newly fenced or was fenced before.** -/
theorem countP_before (l : List SourceIncarnationKey) (h : reachedIncarnation s d.id < i) :
    (l.countP fun owner => owner.source == d.id && decide (owner.incarnation < i)) =
      l.countP (unfencedBefore s ⟨d.id, i⟩) + l.countP (fencedOf s d.id) := by
  induction l with
  | nil => rfl
  | cons owner l ih =>
    have hone : (if (owner.source == d.id && decide (owner.incarnation < i)) = true then 1 else 0) =
        (if unfencedBefore s ⟨d.id, i⟩ owner = true then 1 else 0) +
          if fencedOf s d.id owner = true then 1 else 0 := by
      unfold unfencedBefore fencedOf
      by_cases hsource : owner.source = d.id
      · cases hfenced : sessionIsFenced s owner with
        | false => simp
        | true =>
          have hlt : owner.incarnation < i := by
            have hreached := (sessionIsFenced_iff_lt owner).mp hfenced
            rw [hsource] at hreached
            exact UInt64.lt_trans hreached h
          simp [hsource, hlt]
      · simp [beq_eq_false_iff_ne.mpr hsource]
    rw [List.countP_cons, List.countP_cons, List.countP_cons, ih, hone]
    omega

/-- Below an incarnation that the source has reached nothing is left to fence. -/
theorem unfencedBefore_eq_false (h : ¬ reachedIncarnation s d.id < i) (owner : SourceIncarnationKey) :
    unfencedBefore s ⟨d.id, i⟩ owner = false := by
  unfold unfencedBefore
  by_cases hsource : owner.source = d.id
  · by_cases hlt : owner.incarnation < i
    · have hfenced : sessionIsFenced s owner = true := by
        rw [sessionIsFenced_iff_lt, hsource]
        exact UInt64.lt_of_lt_of_le hlt (UInt64.not_lt.mp h)
      simp [hfenced]
    · simp [hlt]
  · simp [beq_eq_false_iff_ne.mpr hsource]

end Open

variable {d : SourceDescriptor} {io : Store.AppendIo}

namespace Registry

/-- An open that goes through reports what it finds in the state before it. -/
theorem openSession_result {r : Registry} {i : Incarnation} {t t' : Timestamp}
    (h : (r.openSession d i t t' io).2.disposition.isOpen = true) :
    (r.openSession d i t t' io).2 = openedResult r.state ⟨d.id, i⟩ := by
  obtain ⟨r', -, ⟨-, heq⟩ | ⟨-, hrefused⟩⟩ := r.openSession_eq d i t t' io
  · rw [heq]
  · exact absurd (h.symm.trans hrefused) (by simp)

theorem fencedClaims_openedResult (s : RegistryState) (key : SourceIncarnationKey) :
    (openedResult s key).fencedClaims = if reachedIncarnation s key.source < key.incarnation then
      countClaimsBefore s key.source key.incarnation else 0 := by
  unfold openedResult
  dsimp only
  split
  · rfl
  split
  · rename_i hlt
    exact (if_pos hlt).symm
  · rename_i hlt
    split <;> exact (if_neg hlt).symm

/-- **The report is what the call fences plus what was fenced before**, in 64 bits. -/
theorem fencedClaims_eq {r : Registry} {i : Incarnation} {t t' : Timestamp}
    (h : (r.openSession d i t t' io).2.disposition.isOpen = true)
    (hi : reachedIncarnation r.state d.id < i) :
    (r.openSession d i t t' io).2.fencedClaims =
      UInt64.ofNat ((claimOwners r.state).countP (unfencedBefore r.state ⟨d.id, i⟩) +
        (claimOwners r.state).countP (fencedOf r.state d.id)) := by
  rw [openSession_result h, fencedClaims_openedResult, if_pos hi, countClaimsBefore, countOwned_eq,
    countP_before _ hi]

/-- The claims of the source that are fenced already leave no trace in a 64-bit count, and those
that are not fit in one. -/
def CountsOnce (s : RegistryState) (key : SourceIncarnationKey) : Prop :=
  reachedIncarnation s key.source < key.incarnation →
    2 ^ 64 ∣ (claimOwners s).countP (fencedOf s key.source) ∧
      (claimOwners s).countP (unfencedBefore s key) < 2 ^ 64

/-- **Fencing is counted once exactly when nothing of the source was fenced before.**  The report of
a call that opens a session is the number of claims whose session was not fenced before the call
and is fenced after it if and only if the source has no claims that were fenced already, up to
multiples of `2 ^ 64`. -/
theorem fenced_counted_once_iff {r : Registry} {d : SourceDescriptor} {i : Incarnation}
    {t t' : Timestamp} {io : Store.AppendIo}
    (h : (r.openSession d i t t' io).2.disposition.isOpen = true) :
    (r.openSession d i t t' io).2.fencedClaims.toNat = (claimOwners r.state).countP
        (newlyFenced r.state (r.openSession d i t t' io).1.state) ↔
      CountsOnce r.state ⟨d.id, i⟩ := by
  have hstate : (r.openSession d i t t' io).1.state = openState r.state d i t' := by
    rcases (r.openSession_spec d i t t' io).2 with ⟨-, -, hstate⟩ | ⟨hclosed, -⟩
    · exact hstate
    · exact absurd (h.symm.trans hclosed) (by simp)
  rw [hstate, funext newlyFenced_openState]
  unfold CountsOnce
  dsimp only
  by_cases hi : reachedIncarnation r.state d.id < i
  · rw [fencedClaims_eq h hi, UInt64.toNat_ofNat']
    constructor
    · intro hcount _
      omega
    · intro hcond
      obtain ⟨hdvd, hlt⟩ := hcond hi
      omega
  · refine iff_of_true ?_ fun hlt => absurd hlt hi
    rw [openSession_result h, fencedClaims_openedResult, if_neg hi]
    symm
    rw [UInt64.toNat_zero, List.countP_eq_zero]
    intro owner _ hbefore
    exact absurd (hbefore.symm.trans (unfencedBefore_eq_false hi owner)) (by simp)

/-- A source makes a claim under its first incarnation and then opens the later ones. -/
def sampleRestarts (later : List Incarnation) : List Request :=
  [sampleOpen 1 1 5, sampleIngest 1 1 1 (samplePlace 8 0 0 0)] ++ later.map fun i => sampleOpen 1 i 5

/-- The open of an incarnation of the source reports one number and fences another. -/
def sampleReports (i : Incarnation) (reported fenced : Nat) (r : Registry) : Bool :=
  let opened := r.openSession { id := .fromParts 0 1 } i 6 7 .written
  opened.2.disposition == .newIncarnation && opened.2.fencedClaims.toNat == reported &&
    (claimOwners r.state).countP (newlyFenced r.state opened.1.state) == fenced

theorem fenced_counted_once_iff_sample :
    ∃ (r : Registry) (es : List Evidence), r.ReachedBy {} (sampleRestarts []) es ∧
      (r.openSession { id := .fromParts 0 1 } 2 6 7 .written).2.disposition.isOpen = true ∧
      CountsOnce r.state ⟨.fromParts 0 1, 2⟩ := by
  obtain ⟨r, es, hr, hp⟩ := exists_reached {} (sampleRestarts [])
    (fun r _ => sampleReports 2 2 2 r) (by decide +kernel)
  simp only [sampleReports, Bool.and_eq_true, beq_iff_eq] at hp
  have hopen : (r.openSession { id := .fromParts 0 1 } 2 6 7 .written).2.disposition.isOpen = true := by
    rw [hp.1.1]
    rfl
  exact ⟨r, es, hr, hopen, (fenced_counted_once_iff hopen).mp (hp.1.2.trans hp.2.symm)⟩

/-- The third incarnation reports the claims that the second has fenced. -/
theorem fenced_counted_twice :
    ∃ (r : Registry) (es : List Evidence), r.ReachedBy {} (sampleRestarts [2]) es ∧
      (r.openSession { id := .fromParts 0 1 } 3 6 7 .written).2.disposition = .newIncarnation ∧
      (r.openSession { id := .fromParts 0 1 } 3 6 7 .written).2.fencedClaims.toNat = 2 ∧
      (claimOwners r.state).countP (newlyFenced r.state
        (r.openSession { id := .fromParts 0 1 } 3 6 7 .written).1.state) = 0 := by
  obtain ⟨r, es, hr, hp⟩ := exists_reached {} (sampleRestarts [2])
    (fun r _ => sampleReports 3 2 0 r) (by decide +kernel)
  simp only [sampleReports, Bool.and_eq_true, beq_iff_eq] at hp
  exact ⟨r, es, hr, hp.1.1, hp.1.2, hp.2⟩

end Registry

end CableRegistry
