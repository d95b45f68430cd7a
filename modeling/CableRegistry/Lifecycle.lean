import CableRegistry.PortAnswers

/-!
# Lifecycle words

What sources say about the lifecycle of an object: an assertion against its current
incarnation, or a reincarnation that reaches it, which counts as the word that the object is
present (`LifecycleWord`).  The words of the highest authority decide (`TopWord`), and they
are collapsed into one action and a conflict flag (`resolveFlags`).

* `excluded_iff`: when every word of the highest authority takes the object out of service,
  the object is out of the graph unless one says quarantined, another says removed and none
  says retired: that disagreement is collapsed into a conflict whose action is present.
-/

open Std (ExtTreeMap)

namespace CableRegistry

/-! ### Words -/

/-- A word on the lifecycle of an object's current incarnation, from a session that is not
fenced. -/
inductive LifecycleWord (s : RegistryState) (object : ObjectId) : LifecycleCandidate → Prop
  | asserted {owner : SourceIncarnationKey} {f : Folded LifecycleValue}
      (stored : OrdMap.find₂ s.lifecycleRecords object owner = some f)
      (unfenced : sessionIsFenced s owner = false)
      (current : f.value.objectIncarnation = objectIncarnationOf s object) :
      LifecycleWord s object ⟨f.value.action, false, f.metadata⟩
  | replaced {owner : SourceIncarnationKey} {f : Folded ReincarnationValue}
      (stored : OrdMap.find₂ s.reincarnationRecords object owner = some f)
      (unfenced : sessionIsFenced s owner = false)
      (reached : f.value.target = objectIncarnationOf s object) :
      LifecycleWord s object ⟨.present, true, f.metadata⟩

/-- A word that no other one overrides. -/
def TopWord (s : RegistryState) (object : ObjectId) (c : LifecycleCandidate) : Prop :=
  LifecycleWord s object c ∧
    ∀ other, LifecycleWord s object other → other.metadata.authority ≤ c.metadata.authority

section Words

variable {s : RegistryState} {object : ObjectId} {c : LifecycleCandidate}

theorem mem_lifecycleCandidates : c ∈ lifecycleCandidates s object ↔ LifecycleWord s object c := by
  rw [lifecycleCandidates_eq, List.mem_append]
  simp only [List.mem_map, List.mem_filter, Bool.and_eq_true, Bool.not_eq_true', beq_iff_eq,
    mem_recordsOf]
  constructor
  · rintro (⟨entry, ⟨hstored, hfenced, hcurrent⟩, rfl⟩ | ⟨entry, ⟨hstored, hfenced, hreached⟩, rfl⟩)
    · exact .asserted hstored hfenced hcurrent
    · exact .replaced hstored hfenced hreached
  · rintro (⟨hstored, hfenced, hcurrent⟩ | ⟨hstored, hfenced, hreached⟩)
    · exact .inl ⟨(_, _), ⟨hstored, hfenced, hcurrent⟩, rfl⟩
    · exact .inr ⟨(_, _), ⟨hstored, hfenced, hreached⟩, rfl⟩

/-- The words of the highest authority. -/
def lifecycleWinners (s : RegistryState) (object : ObjectId) : List LifecycleCandidate :=
  (lifecycleCandidates s object).filter (·.metadata.authority ==
    bestAuthority ((lifecycleCandidates s object).map (·.metadata.authority)))

theorem mem_lifecycleWinners : c ∈ lifecycleWinners s object ↔ TopWord s object c := by
  unfold lifecycleWinners TopWord
  rw [mem_filter_best]
  simp only [mem_lifecycleCandidates]

/-- Where anyone speaks, a word of the highest authority exists. -/
theorem exists_topWord (h : LifecycleWord s object c) : ∃ c', TopWord s object c' := by
  obtain ⟨c', hc', -, hmax⟩ := exists_best (f := (·.metadata.authority))
    (List.ne_nil_of_mem (mem_lifecycleCandidates.mpr h))
  exact ⟨c', mem_lifecycleWinners.mp (mem_filter_best.mpr ⟨hc', hmax⟩)⟩

end Words

/-! ### The verdict -/

/-- The verdict in terms of which words were said: present, retired, removed, quarantined,
and present by a reincarnation. -/
def resolveFlags (present retired removed quarantined reincarnated : Bool) : LifecycleAction × Bool :=
  let distinct := present.toNat + retired.toNat + removed.toNat + quarantined.toNat
  if distinct ≤ 1 then
    if retired then (.retired, false)
    else if removed then (.removed, false)
    else if quarantined then (.quarantined, false)
    else (.present, false)
  else if retired && present && reincarnated && distinct == 2 then (.present, false)
  else if retired then (.retired, false)
  else if removed && present && !quarantined && distinct == 2 then (.removed, false)
  else (.present, true)

/-- A conflict leaves the object in the graph. -/
theorem resolveFlags_present {present retired removed quarantined reincarnated : Bool}
    (h : (resolveFlags present retired removed quarantined reincarnated).2 = true) :
    (resolveFlags present retired removed quarantined reincarnated).1 = .present := by
  revert h
  decide +revert

theorem resolveActions_eq (winners : List LifecycleCandidate) :
    resolveActions winners = resolveFlags (winners.any (·.action == .present))
      (winners.any (·.action == .retired)) (winners.any (·.action == .removed))
      (winners.any (·.action == .quarantined))
      (winners.any fun c => c.action == .present && c.fromReincarnation) := rfl

/-- The verdict on an object. -/
theorem lifecycleActionOf_eq (s : RegistryState) (object : ObjectId) :
    ((lifecycleActionOf s object).action, (lifecycleActionOf s object).conflicting) =
      resolveActions (lifecycleWinners s object) := by
  unfold lifecycleActionOf lifecycleWinners
  cases hc : lifecycleCandidates s object with
  | nil => rfl
  | cons c l => rfl

/-- Some word of the highest authority says so. -/
def Says (s : RegistryState) (object : ObjectId) (action : LifecycleAction) : Prop :=
  ∃ c, TopWord s object c ∧ c.action = action

variable {object : ObjectId} {s : RegistryState}

theorem any_action_eq {action : LifecycleAction} :
    (lifecycleWinners s object).any (·.action == action) = true ↔ Says s object action := by
  rw [List.any_eq_true]
  refine exists_congr fun c => ?_
  rw [mem_lifecycleWinners, beq_iff_eq]

/-! ### Out of service -/

/-- The action takes the object out of service. -/
def LifecycleAction.isOut (action : LifecycleAction) : Bool :=
  action == .quarantined || action == .removed || action == .retired

/-- The words of the highest authority say both quarantined and removed, and none retired. -/
def SplitOut (s : RegistryState) (object : ObjectId) : Prop :=
  Says s object .quarantined ∧ Says s object .removed ∧ ¬ Says s object .retired

theorem isOut_resolveFlags (retired removed quarantined reincarnated : Bool)
    (h : (retired || removed || quarantined) = true) :
    (resolveFlags false retired removed quarantined reincarnated).1.isOut =
      !(quarantined && removed && !retired) := by
  revert h
  cases retired <;> cases removed <;> cases quarantined <;> cases reincarnated <;> decide

/-- **When every word of the highest authority takes the object out, it is out of the graph
unless they split over quarantined and removed.** -/
theorem excluded_iff (hword : ∃ c, LifecycleWord s object c)
    (hout : ∀ c, TopWord s object c → c.action.isOut = true) :
    objectExcluded s object = true ↔ ¬ SplitOut s object := by
  obtain ⟨c, hc⟩ := hword
  obtain ⟨top, htop⟩ := exists_topWord hc
  have hpresent : (lifecycleWinners s object).any (·.action == .present) = false := by
    rw [← Bool.not_eq_true, any_action_eq]
    rintro ⟨c', hc', hact⟩
    have hc'' := hout c' hc'
    rw [hact] at hc''
    exact absurd hc'' (by decide)
  have hsome : ((lifecycleWinners s object).any (·.action == .retired) ||
      (lifecycleWinners s object).any (·.action == .removed) ||
      (lifecycleWinners s object).any (·.action == .quarantined)) = true := by
    have hisOut := hout top htop
    unfold LifecycleAction.isOut at hisOut
    simp only [Bool.or_eq_true, beq_iff_eq, any_action_eq] at hisOut ⊢
    rcases hisOut with (hact | hact) | hact
    · exact .inr ⟨top, htop, hact⟩
    · exact .inl (.inr ⟨top, htop, hact⟩)
    · exact .inl (.inl ⟨top, htop, hact⟩)
  have hverdict := congrArg Prod.fst (lifecycleActionOf_eq s object)
  rw [resolveActions_eq, hpresent] at hverdict
  have hexcluded : objectExcluded s object = (lifecycleActionOf s object).action.isOut := rfl
  rw [hexcluded, show (lifecycleActionOf s object).action = _ from hverdict,
    isOut_resolveFlags _ _ _ _ hsome]
  unfold SplitOut
  rw [← any_action_eq, ← any_action_eq, ← any_action_eq]
  cases (lifecycleWinners s object).any (·.action == .quarantined) <;>
    cases (lifecycleWinners s object).any (·.action == .removed) <;>
    cases (lifecycleWinners s object).any (·.action == .retired) <;> simp

/-- The object of an edge is not out of the graph. -/
theorem included_of_edge {limits : Limits} {port : PortRef} {policy : ValidationPolicy}
    {edge : AttachmentEdge} (h : edge ∈ (derivePortView s limits port policy).edges) :
    objectExcluded s edge.subject.object = false := by
  rw [derivePortView_eq] at h
  obtain ⟨subject, hsubject, rfl⟩ := List.mem_map.mp h
  obtain ⟨record, hrecord, rfl⟩ := mem_occupants.mp hsubject
  have hlive := (mem_topPortRecords.mp (mem_occupiedRecords.mp hrecord).1).1
  exact (countsAt_iff.mp hlive).included

/-- **Agreement that an object is out keeps it out, unless it splits.**  In every state,
reachable or not, take an object with an assertion against its current incarnation, such that
every word of the highest authority says quarantined, removed or retired.  It is out of the graph exactly
when these do not split over quarantined and removed with none that says retired, and then no
port view has an edge of it. -/
theorem agreedOut_excluded_iff {r : Registry} (object : ObjectId)
    (hword : ∃ c, LifecycleWord r.state object c ∧ c.fromReincarnation = false)
    (hout : ∀ c, TopWord r.state object c → c.action.isOut = true) :
    (objectExcluded r.state object = true ↔ ¬ SplitOut r.state object) ∧
    (¬ SplitOut r.state object → ∀ port policy,
      ∀ edge ∈ (derivePortView r.state r.limits port policy).edges, edge.subject.object ≠ object) := by
  have hiff := excluded_iff (hword.imp fun _ hc => hc.1) hout
  refine ⟨hiff, ?_⟩
  rintro hsplit port policy edge hedge rfl
  rw [included_of_edge hedge] at hiff
  exact absurd (hiff.mpr hsplit) (by simp)

/-- Two sources of one rank; the first places a side of object 9 and says the given action, the
second says another one. -/
def sampleWords (first second : LifecycleAction) : List Request :=
  [Registry.sampleOpen 1 1 5, Registry.sampleOpen 2 1 5,
    Registry.sampleIngest 1 1 1 Registry.sampleEndpoint,
    Registry.sampleIngest 1 1 2 (Registry.sampleObject 9),
    Registry.sampleIngest 1 1 3 (Registry.samplePlace 9 0 0 0),
    Registry.sampleIngest 1 1 4
      (.setLifecycle { object := .fromParts 0 9, objectIncarnation := 1, action := first }),
    Registry.sampleIngest 2 1 1
      (.setLifecycle { object := .fromParts 0 9, objectIncarnation := 1, action := second })]

/-- What can be computed of a state in which every word of the highest authority takes the
object out. -/
def allOut (s : RegistryState) (object : ObjectId) : Bool :=
  (lifecycleCandidates s object).any (!·.fromReincarnation) &&
    (lifecycleWinners s object).all (·.action.isOut)

theorem words_of_allOut (h : allOut s object = true) :
    (∃ c, LifecycleWord s object c ∧ c.fromReincarnation = false) ∧
      ∀ c, TopWord s object c → c.action.isOut = true := by
  unfold allOut at h
  simp only [Bool.and_eq_true, List.any_eq_true, Bool.not_eq_true', List.all_eq_true] at h
  obtain ⟨⟨c, hc, hfrom⟩, hall⟩ := h
  exact ⟨⟨c, mem_lifecycleCandidates.mp hc, hfrom⟩, fun c' hc' => hall c' (mem_lifecycleWinners.mpr hc')⟩

theorem agreedOut_excluded_retired :
    ∃ (r : Registry) (es : List Evidence), r.ReachedBy {} (sampleWords .removed .retired) es ∧
      ∀ port policy, ∀ edge ∈ (derivePortView r.state r.limits port policy).edges,
        edge.subject.object ≠ .fromParts 0 9 := by
  obtain ⟨r, es, hr, hp⟩ := Registry.exists_reached {} (sampleWords .removed .retired)
    (fun r _ => allOut r.state (.fromParts 0 9) &&
      (lifecycleWinners r.state (.fromParts 0 9)).any (·.action == .retired)) (by decide +kernel)
  rw [Bool.and_eq_true, any_action_eq] at hp
  obtain ⟨hword, hout⟩ := words_of_allOut hp.1
  exact ⟨r, es, hr, (agreedOut_excluded_iff _ hword hout).2 fun hsplit => hsplit.2.2 hp.2⟩

/-- One source says quarantined and another of the same authority says removed: the object
stays in the graph. -/
theorem splitOut_attached :
    ∃ (r : Registry) (es : List Evidence), r.ReachedBy {} (sampleWords .quarantined .removed) es ∧
      (∃ c, LifecycleWord r.state (.fromParts 0 9) c ∧ c.fromReincarnation = false) ∧
      (∀ c, TopWord r.state (.fromParts 0 9) c → c.action.isOut = true) ∧
      ∃ edge ∈ (derivePortView r.state r.limits ⟨.fromParts 0 7, 0⟩ .includeAll).edges,
        edge.subject.object = .fromParts 0 9 := by
  obtain ⟨r, es, hr, hp⟩ := Registry.exists_reached {} (sampleWords .quarantined .removed)
    (fun r _ => allOut r.state (.fromParts 0 9) &&
      (derivePortView r.state r.limits ⟨.fromParts 0 7, 0⟩ .includeAll).edges.any
        (·.subject.object == .fromParts 0 9)) (by decide +kernel)
  rw [Bool.and_eq_true, List.any_eq_true] at hp
  obtain ⟨hout, edge, hedge, hobject⟩ := hp
  exact ⟨r, es, hr, (words_of_allOut hout).1, (words_of_allOut hout).2, edge, hedge,
    beq_iff_eq.mp hobject⟩

end CableRegistry
