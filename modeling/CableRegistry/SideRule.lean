import CableRegistry.Queries
import CableRegistry.Reachable
import CableRegistry.SideAnswers

/-!
# The rule for a side

The code splits the live records of a side into those that attach it and those that detach it,
ranks either kind on its own and reads the ports in a second pass.  The rule that comes out is
about the *binding* records only: the live records that no live record outranks
(`bindingRecords`).  Nobody binds: unknown.  All detach: empty.  All attach at one port:
attached there.  Anything else is a conflict.

* `side_by_authority`: a query reports of every side what the rule says, and nothing but the
  binding records of the side has a part in its state and in the ports of its edges.
-/

namespace CableRegistry

/-- The live records of a side that no live record of the side outranks. -/
def bindingRecords (s : RegistryState) (subject : ObjectSideRef) (policy : ValidationPolicy) :
    List SideRecord :=
  (sideRecords s subject policy).filter fun record =>
    (sideRecords s subject policy).all fun other =>
      decide (other.2.metadata.authority ≤ record.2.metadata.authority)

section Binding

variable {s : RegistryState} {subject : ObjectSideRef} {policy : ValidationPolicy}

theorem mem_bindingRecords {record : SideRecord} :
    record ∈ bindingRecords s subject policy ↔ record ∈ sideRecords s subject policy ∧
      ∀ other ∈ sideRecords s subject policy,
        other.2.metadata.authority ≤ record.2.metadata.authority := by
  unfold bindingRecords
  simp [List.mem_filter]

theorem exists_binding (h : sideRecords s subject policy ≠ []) :
    ∃ record, record ∈ bindingRecords s subject policy := by
  obtain ⟨record, hrecord, -, hmax⟩ := exists_best h
  exact ⟨record, mem_bindingRecords.mpr ⟨hrecord, hmax⟩⟩

theorem bindingRecords_eq_nil :
    bindingRecords s subject policy = [] ↔ sideRecords s subject policy = [] := by
  constructor
  · intro hnil
    by_contra hne
    obtain ⟨record, hrecord⟩ := exists_binding hne
    rw [hnil] at hrecord
    exact absurd hrecord (by simp)
  · intro hnil
    unfold bindingRecords
    rw [hnil]
    rfl

/-- **One kind of claims prevails when all that binds is of that kind.** -/
theorem sideWins_iff_binding {attached : Bool} :
    sideWins s subject policy attached = true ↔ bindingRecords s subject policy ≠ [] ∧
      ∀ record ∈ bindingRecords s subject policy, record.2.value.attached = attached := by
  rw [sideWins_iff]
  constructor
  · rintro ⟨hne, hlower⟩
    obtain ⟨top, htop, heq⟩ := exists_sideAuthority hne
    have hrecords : sideRecords s subject policy ≠ [] :=
      List.ne_nil_of_mem (mem_sideClaims.mp htop).1
    refine ⟨fun hnil => hrecords (bindingRecords_eq_nil.mp hnil), fun record hrecord => ?_⟩
    obtain ⟨hmem, hmax⟩ := mem_bindingRecords.mp hrecord
    by_contra hkind
    have hother : record ∈ sideClaims s subject policy (!attached) :=
      mem_sideClaims.mpr ⟨hmem, Bool.eq_not_of_ne hkind⟩
    have hlt := hlower record hother
    rw [← heq] at hlt
    exact absurd (hmax top (mem_sideClaims.mp htop).1) (not_le.mpr hlt)
  · rintro ⟨hne, hkind⟩
    obtain ⟨top, htop⟩ := List.exists_mem_of_ne_nil _ hne
    obtain ⟨hmem, hmax⟩ := mem_bindingRecords.mp htop
    have hclaim : top ∈ sideClaims s subject policy attached :=
      mem_sideClaims.mpr ⟨hmem, hkind top htop⟩
    refine ⟨List.ne_nil_of_mem hclaim, fun record hrecord => ?_⟩
    obtain ⟨hrecord, hother⟩ := mem_sideClaims.mp hrecord
    refine lt_of_lt_of_le (lt_of_le_of_ne (hmax record hrecord) fun heq => ?_) (le_sideAuthority hclaim)
    -- A record of the other kind at the same authority would bind as well.
    have hbinds : record ∈ bindingRecords s subject policy :=
      mem_bindingRecords.mpr ⟨hrecord, fun other hin => by rw [heq]; exact hmax other hin⟩
    rw [hkind record hbinds] at hother
    exact absurd hother (by simp)

/-- The attachments of the highest authority are all that binds, where they prevail. -/
theorem topAttachments_eq_binding (h : sideWins s subject policy true = true) :
    topAttachments s subject policy = bindingRecords s subject policy := by
  obtain ⟨hne, hkind⟩ := sideWins_iff_binding.mp h
  obtain ⟨top, htop⟩ := List.exists_mem_of_ne_nil _ hne
  obtain ⟨hmem, hmax⟩ := mem_bindingRecords.mp htop
  have hclaim : top ∈ sideClaims s subject policy true := mem_sideClaims.mpr ⟨hmem, hkind top htop⟩
  have hauthority : sideAuthority s subject policy true = top.2.metadata.authority := by
    obtain ⟨best, hbest, heq⟩ := exists_sideAuthority (List.ne_nil_of_mem hclaim)
    rw [← heq]
    exact le_antisymm (hmax best (mem_sideClaims.mp hbest).1) (heq ▸ le_sideAuthority hclaim)
  unfold topAttachments sideClaims
  rw [List.filter_filter]
  unfold bindingRecords
  refine List.filter_congr fun record hrecord => ?_
  rw [Bool.eq_iff_iff, Bool.and_eq_true, beq_iff_eq, beq_iff_eq]
  simp only [List.all_eq_true, decide_eq_true_eq]
  constructor
  · rintro ⟨heq, -⟩ other hother
    rw [heq, hauthority]
    exact hmax other hother
  · intro hall
    refine ⟨?_, hkind record (mem_bindingRecords.mpr ⟨hrecord, hall⟩)⟩
    rw [hauthority]
    exact le_antisymm (hmax record hrecord) (hall top hmem)

/-- The ports of a side, read from what binds. -/
theorem sidePorts_eq_binding :
    sidePorts s subject policy =
      if sideWins s subject policy true then
        unique (sortBy portLess ((bindingRecords s subject policy).map (·.2.value.port)))
      else [] := by
  unfold sidePorts
  split
  · rename_i h
    rw [topAttachments_eq_binding h]
  · rfl

theorem nodup_sidePorts : (sidePorts s subject policy).Nodup := by
  unfold sidePorts
  split
  · have hless : ∀ a b : PortRef, portLess a b = (compare a b == .lt) := fun _ _ => rfl
    exact nodup_of_pairwise_lt (pairwise_unique (pairwise_sortBy hless _))
  · exact List.nodup_nil

/-- The records that bind all name one port. -/
theorem sidePorts_eq_singleton {port : PortRef} (hne : bindingRecords s subject policy ≠ [])
    (h : ∀ record ∈ bindingRecords s subject policy,
      record.2.value.attached = true ∧ record.2.value.port = port) :
    sidePorts s subject policy = [port] := by
  have hwins : sideWins s subject policy true = true :=
    sideWins_iff_binding.mpr ⟨hne, fun record hrecord => (h record hrecord).1⟩
  have hmem : ∀ p, p ∈ sidePorts s subject policy ↔ p = port := by
    intro p
    rw [sidePorts_eq_binding, if_pos hwins, mem_unique, mem_sortBy, List.mem_map]
    constructor
    · rintro ⟨record, hrecord, rfl⟩
      exact (h record hrecord).2
    · rintro rfl
      obtain ⟨record, hrecord⟩ := List.exists_mem_of_ne_nil _ hne
      exact ⟨record, hrecord, (h record hrecord).2⟩
  have hnodup : (sidePorts s subject policy).Nodup := nodup_sidePorts
  cases hports : sidePorts s subject policy with
  | nil =>
    rw [hports] at hmem
    exact absurd ((hmem port).mpr rfl) (by simp)
  | cons p rest =>
    rw [hports] at hmem hnodup
    obtain rfl := (hmem p).mp List.mem_cons_self
    cases rest with
    | nil => rfl
    | cons q rest =>
      obtain rfl := (hmem q).mp (List.mem_cons_of_mem _ List.mem_cons_self)
      exact absurd hnodup (by simp)

/-- **The state of a side in terms of what binds.** -/
theorem sideState_eq_binding :
    (bindingRecords s subject policy = [] → sideState s subject policy = .unknown) ∧
    (bindingRecords s subject policy ≠ [] →
      (∀ record ∈ bindingRecords s subject policy, record.2.value.attached = false) →
        sideState s subject policy = .empty) ∧
    (∀ port, bindingRecords s subject policy ≠ [] → (∀ record ∈ bindingRecords s subject policy,
      record.2.value.attached = true ∧ record.2.value.port = port) →
        sideState s subject policy = .attached) ∧
    (bindingRecords s subject policy ≠ [] →
      ¬ (∀ record ∈ bindingRecords s subject policy, record.2.value.attached = false) →
      ¬ (∃ port, ∀ record ∈ bindingRecords s subject policy,
        record.2.value.attached = true ∧ record.2.value.port = port) →
        sideState s subject policy = .conflicting) := by
  have hsome : bindingRecords s subject policy ≠ [] →
      (sideRecords s subject policy).isEmpty = false := by
    intro hne
    rw [List.isEmpty_eq_false_iff]
    exact fun hnil => hne (bindingRecords_eq_nil.mpr hnil)
  refine ⟨?_, ?_, ?_, ?_⟩
  · intro hnil
    unfold sideState
    rw [bindingRecords_eq_nil.mp hnil]
    rfl
  · intro hne hkind
    have hwins : sideWins s subject policy false = true := sideWins_iff_binding.mpr ⟨hne, hkind⟩
    have hloses : sideWins s subject policy true = false := by
      by_contra htrue
      rw [sideWins_false_of_true (Bool.eq_true_of_not_eq_false htrue)] at hwins
      exact absurd hwins (by simp)
    simp [sideState, hsome hne, hwins, hloses]
  · intro port hne hkind
    have hwins : sideWins s subject policy true = true :=
      sideWins_iff_binding.mpr ⟨hne, fun record hrecord => (hkind record hrecord).1⟩
    simp [sideState, hsome hne, hwins, sidePorts_eq_singleton hne hkind]
  · intro hne hdetached hport
    have hloses : sideWins s subject policy false = false := by
      by_contra htrue
      exact hdetached (sideWins_iff_binding.mp (Bool.eq_true_of_not_eq_false htrue)).2
    cases hwins : sideWins s subject policy true with
    | false => simp [sideState, hsome hne, hwins, hloses]
    | true =>
      have hkind := (sideWins_iff_binding.mp hwins).2
      -- One port would be the port of all that binds.
      have hlen : (sidePorts s subject policy).length > 1 := by
        by_contra hle
        obtain ⟨record, hrecord⟩ := List.exists_mem_of_ne_nil _ hne
        refine hport ⟨record.2.value.port, fun other hother => ⟨hkind other hother, ?_⟩⟩
        have hmem : ∀ b ∈ bindingRecords s subject policy,
            b.2.value.port ∈ sidePorts s subject policy := by
          intro b hb
          rw [sidePorts_eq_binding, if_pos hwins, mem_unique, mem_sortBy]
          exact List.mem_map_of_mem hb
        obtain ⟨port, hone⟩ : ∃ port, sidePorts s subject policy = [port] := by
          refine List.length_eq_one_iff.mp (Nat.le_antisymm (not_lt.mp hle) ?_)
          exact List.length_pos_of_mem (hmem record hrecord)
        rw [hone] at hmem
        rw [List.mem_singleton.mp (hmem other hother), List.mem_singleton.mp (hmem record hrecord)]
      simp [sideState, hsome hne, hwins, hlen]

end Binding

/-! ### Queries -/

theorem ports_deriveSideView (s : RegistryState) (policy : ValidationPolicy) (subject : ObjectSideRef) :
    (deriveSideView s policy subject).edges.map (·.port) = sidePorts s subject policy := by
  obtain ⟨-, hports, -⟩ := deriveSubject_eq s subject policy
  unfold deriveSideView
  dsimp only
  rw [hports]
  apply List.ext_getElem?
  intro i
  rw [List.getElem?_map, List.getElem?_mapIdx]
  cases (sidePorts s subject policy)[i]? <;> rfl

/-- The state and the ports of a side come from what binds, and from nothing else. -/
theorem side_congr {s s' : RegistryState} {subject : ObjectSideRef} {policy policy' : ValidationPolicy}
    (h : bindingRecords s' subject policy' = bindingRecords s subject policy) :
    sideState s' subject policy' = sideState s subject policy ∧
      sidePorts s' subject policy' = sidePorts s subject policy := by
  have hwins : ∀ attached, sideWins s' subject policy' attached = sideWins s subject policy attached := by
    intro attached
    rw [Bool.eq_iff_iff, sideWins_iff_binding, sideWins_iff_binding, h]
  have hports : sidePorts s' subject policy' = sidePorts s subject policy := by
    rw [sidePorts_eq_binding, sidePorts_eq_binding, h, hwins]
  have hnil : (sideRecords s' subject policy').isEmpty = (sideRecords s subject policy).isEmpty := by
    rw [Bool.eq_iff_iff, List.isEmpty_iff, List.isEmpty_iff, ← bindingRecords_eq_nil, h,
      bindingRecords_eq_nil]
  refine ⟨?_, hports⟩
  unfold sideState
  rw [hnil, hwins, hwins, hports]

/-- **A side resolves by authority.**  Let `B` be the records that bind a side of a registered
object.  The side is unknown when nothing binds it, empty when all of `B` detach it, attached
with one edge when all of `B` attach it at one port, and conflicting otherwise; and wherever
the same records bind it, its state and the ports of its edges are the same. -/
theorem side_by_authority {r : Registry} {object : ObjectId} {options : QueryOptions}
    {view : ObjectView} (h : r.queryObject object options = .ok view) {side : ObjectSideView}
    (hside : side ∈ view.sides) {B : List SideRecord}
    (hB : B = bindingRecords r.state ⟨object, side.side⟩ options.validationPolicy) :
    (B = [] → side.state = .unknown) ∧
    (B ≠ [] → (∀ record ∈ B, record.2.value.attached = false) → side.state = .empty) ∧
    (∀ port, B ≠ [] →
      (∀ record ∈ B, record.2.value.attached = true ∧ record.2.value.port = port) →
        side.state = .attached ∧ ∃ edge, side.edges = [edge] ∧ edge.port = port) ∧
    (B ≠ [] → ¬ (∀ record ∈ B, record.2.value.attached = false) →
      ¬ (∃ port, ∀ record ∈ B, record.2.value.attached = true ∧ record.2.value.port = port) →
        side.state = .conflicting) ∧
    ∀ {r' : Registry} {options' : QueryOptions} {view' : ObjectView} {side' : ObjectSideView},
      r'.queryObject object options' = .ok view' → side' ∈ view'.sides → side'.side = side.side →
      bindingRecords r'.state ⟨object, side.side⟩ options'.validationPolicy = B →
        side'.state = side.state ∧ side'.edges.map (·.port) = side.edges.map (·.port) := by
  subst hB
  have hview := Registry.sides_queryObject h hside
  have hstate : side.state = sideState r.state ⟨object, side.side⟩ options.validationPolicy := by
    rw [hview]
    exact (deriveSubject_eq r.state ⟨object, side.side⟩ options.validationPolicy).1
  have hports : side.edges.map (·.port) =
      sidePorts r.state ⟨object, side.side⟩ options.validationPolicy := by
    rw [hview]
    exact ports_deriveSideView r.state options.validationPolicy ⟨object, side.side⟩
  obtain ⟨hunknown, hempty, hattached, hconflicting⟩ :=
    @sideState_eq_binding r.state ⟨object, side.side⟩ options.validationPolicy
  rw [hstate]
  refine ⟨hunknown, hempty, ?_, hconflicting, ?_⟩
  · intro port hne hkind
    refine ⟨hattached port hne hkind, ?_⟩
    rw [sidePorts_eq_singleton hne hkind] at hports
    obtain ⟨edge, hedge, hport⟩ := List.map_eq_singleton_iff.mp hports
    exact ⟨edge, hedge, hport⟩
  · intro r' options' view' side' h' hside' hsame hbinding
    have hview' := Registry.sides_queryObject h' hside'
    rw [hsame] at hview'
    obtain ⟨hstate', hports'⟩ := side_congr hbinding
    rw [hports, ← hports', ← hstate', hview']
    exact ⟨(deriveSubject_eq r'.state ⟨object, side.side⟩ options'.validationPolicy).1,
      ports_deriveSideView r'.state options'.validationPolicy ⟨object, side.side⟩⟩

/-- A source of rank 5 places a side of object 9, and one of rank 3 detaches it. -/
def sampleOutranked : List Request :=
  [Registry.sampleOpen 1 1 5, Registry.sampleOpen 2 1 3,
    Registry.sampleIngest 1 1 1 (Registry.sampleObject 9),
    Registry.sampleIngest 1 1 2 (Registry.samplePlace 9 0 1 0),
    Registry.sampleIngest 2 1 1 (.detach { subject := ⟨.fromParts 0 9, 0⟩, objectIncarnation := 1 })]

theorem side_by_authority_outranked :
    ∃ (r : Registry) (es : List Evidence) (view : ObjectView) (side : ObjectSideView),
      r.ReachedBy {} sampleOutranked es ∧ r.queryObject (.fromParts 0 9) {} = .ok view ∧
        side ∈ view.sides ∧ side.state = .attached ∧
        ∃ edge, side.edges = [edge] ∧ edge.port = ⟨.fromParts 0 7, 1⟩ := by
  obtain ⟨r, es, hr, hp⟩ := Registry.exists_reached {} sampleOutranked
    (fun r _ => (r.queryObject (.fromParts 0 9) {}).toOption.any fun view => view.sides.any fun side =>
      let binding := bindingRecords r.state ⟨.fromParts 0 9, side.side⟩ .includeAll
      !binding.isEmpty && binding.all fun record =>
        record.2.value.attached && record.2.value.port == ⟨.fromParts 0 7, 1⟩) (by decide +kernel)
  cases hq : r.queryObject (.fromParts 0 9) {} with
  | error error =>
    rw [hq] at hp
    exact absurd hp (by simp [Except.toOption])
  | ok view =>
    rw [hq] at hp
    obtain ⟨side, hside, hbinding⟩ := List.any_eq_true.mp hp
    rw [Bool.and_eq_true, Bool.not_eq_true', List.isEmpty_eq_false_iff] at hbinding
    obtain ⟨hne, hall⟩ := hbinding
    obtain ⟨-, -, hattached, -⟩ := side_by_authority hq hside rfl
    refine ⟨r, es, view, side, hr, hq, hside, hattached ⟨.fromParts 0 7, 1⟩ hne ?_⟩
    intro record hrecord
    simpa using List.all_eq_true.mp hall record hrecord

end CableRegistry
