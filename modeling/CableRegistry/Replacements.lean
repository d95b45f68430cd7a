import CableRegistry.LiveClaims
import CableRegistry.Ranges

/-!
# Replacements

The current incarnation of an object is the highest target among the reincarnations of sessions
that are not fenced.  A source that starts again fences its own reincarnations with everything
else, so the incarnation falls back, and claims of other sources against the replaced unit count
again.  For an object that is not registered a newer reincarnation replaces an older one of the same
session even if its target is lower.

* `le_objectIncarnationOf_effect`: a request that keeps the incarnations lowers none.
* `dropReplaced`: the state without the claims against units that had been replaced in an earlier
  state.
* `replacement_is_final`: in a run whose requests all keep the incarnations none of them ever
  decreases, and what was replaced takes no part in any later answer.
-/

open Std (ExtTreeMap)

namespace CableRegistry

/-! ### Requests that keep the incarnations -/

/-- The object has reached the target even without the reincarnations of some sessions. -/
def reachedWithout (s : RegistryState) (object : ObjectId) (gone : SourceIncarnationKey → Bool)
    (target : ObjectIncarnation) : Bool :=
  decide (target ≤ 1) || (recordsOf s.reincarnationRecords object).any fun record =>
    !sessionIsFenced s record.1 && !gone record.1 && decide (target ≤ record.2.value.target)

/-- A session that an open at the given incarnation leaves behind. -/
def lapses (d : SourceDescriptor) (i : Incarnation) (owner : SourceIncarnationKey) : Bool :=
  owner.source == d.id && decide (owner.incarnation < i)

/-- A session that opens leaves behind only reincarnations that another source has made as well, and
a reincarnation of an object that is not registered replaces only such, or one to no higher target. -/
def keepsIncarnation (s : RegistryState) : Request → Bool
  | .openSession d i _ _ _ => s.reincarnationRecords.toList.all fun entry =>
      entry.2.toList.all fun record => sessionIsFenced s record.1 || !lapses d i record.1 ||
        reachedWithout s entry.1 (lapses d i) record.2.value.target
  | .ingest e _ _ =>
    match e.payload with
    | .reincarnateObject p => objectExists s p.object || sessionIsFenced s e.key ||
        (OrdMap.find₂ s.reincarnationRecords p.object e.key).all fun record =>
          decide (e.header.generation ≤ record.metadata.generation) ||
          decide (record.value.target ≤ (reincarnationValue p).target) ||
          reachedWithout s p.object (· == e.key) record.value.target
    | _ => true
  | _ => true

variable {io : Store.AppendIo}

section Step

variable {limits : Limits} {historyPerKey : UInt32} {s s' : RegistryState} {object : ObjectId}
  {owner : SourceIncarnationKey} {m : Attestation} {v : ReincarnationValue}

theorem target_le_of_winner (hw : s.winner (.reincarnation object owner) = some (m, .reincarnation v))
    (hfenced : sessionIsFenced s owner = false) : v.target ≤ objectIncarnationOf s object := by
  obtain ⟨f, hf, rfl⟩ := reincarnationRecord_of_winner hw
  exact target_le_objectIncarnationOf hf hfenced

/-- What is reached without some sessions is still reached where the others are as they were. -/
theorem le_of_reachedWithout {gone : SourceIncarnationKey → Bool} {target : ObjectIncarnation}
    (h : reachedWithout s object gone target = true)
    (hkeep : ∀ owner, gone owner = false → sessionIsFenced s owner = false →
      s'.winner (.reincarnation object owner) = s.winner (.reincarnation object owner) ∧
        sessionIsFenced s' owner = false) :
    target ≤ objectIncarnationOf s' object := by
  unfold reachedWithout at h
  rw [Bool.or_eq_true, decide_eq_true_eq, List.any_eq_true] at h
  rcases h with hone | ⟨record, hrecord, h⟩
  · exact UInt64.le_trans hone (one_le_objectIncarnationOf s' object)
  · simp only [Bool.and_eq_true, Bool.not_eq_true', decide_eq_true_eq] at h
    obtain ⟨⟨hfenced, hgone⟩, hle⟩ := h
    obtain ⟨hwinner, hfenced'⟩ := hkeep record.1 hgone hfenced
    have hw := winner_of_reincarnationRecord (mem_recordsOf.mp hrecord)
    exact UInt64.le_trans hle (target_le_of_winner (hwinner.trans hw) hfenced')

/-- A session that opens lowers no incarnation, if it keeps them. -/
theorem le_objectIncarnationOf_openState {d : SourceDescriptor} {i : Incarnation} {t t' : Timestamp}
    (hc : keepsIncarnation s (.openSession d i t t' io) = true) (object : ObjectId) :
    objectIncarnationOf s object ≤ objectIncarnationOf (Registry.openState s d i t') object := by
  have hwinner : ∀ k, (Registry.openState s d i t').winner k = s.winner k := by
    intro k
    unfold RegistryState.winner
    rw [Registry.openState_lookup]
  rcases objectIncarnationOf_cases s object with hone | ⟨owner, f, hf, hfenced, htarget⟩
  · rw [hone]
    exact one_le_objectIncarnationOf _ object
  have hnew : sessionIsFenced (Registry.openState s d i t') owner = lapses d i owner := by
    rw [sessionIsFenced_openState, hfenced, Bool.false_or]
    rfl
  rw [htarget]
  cases hlapses : lapses d i owner with
  | false =>
    have hw := (hwinner _).trans (winner_of_reincarnationRecord hf)
    exact target_le_of_winner hw (hnew.trans hlapses)
  | true =>
    have hreached : reachedWithout s object (lapses d i) f.value.target = true := by
      obtain ⟨owners, howners, hrecord⟩ := Option.bind_eq_some_iff.mp hf
      unfold keepsIncarnation at hc
      have hentry := List.all_eq_true.mp hc (object, owners) (OrdMap.mem_toList.mpr howners)
      have h := List.all_eq_true.mp hentry (owner, f) (OrdMap.mem_toList.mpr hrecord)
      simpa [hfenced, hlapses] using h
    refine le_of_reachedWithout hreached ?_
    intro owner' hgone hfenced'
    refine ⟨hwinner _, ?_⟩
    rw [sessionIsFenced_openState, hfenced', Bool.false_or]
    exact hgone

/-- A reincarnation that becomes the winner of its key leads beyond the current incarnation, if the
object is registered. -/
theorem lt_target_of_insert {p : ReincarnateObjectPayload}
    (hexists : objectExists s p.object = true)
    (ho : resolvedOutcome s m (.reincarnation p.object (reincarnationValue p)) = .insert) :
    objectIncarnationOf s p.object < (reincarnationValue p).target := by
  refine UInt64.not_le.mp fun hle => ?_
  have hreached : targetReached s (.reincarnation p.object (reincarnationValue p)) = true := by
    simp [targetReached, hexists, hle]
  unfold resolvedOutcome at ho
  split at ho
  · exact absurd ho (by simp)
  · rename_i hnot
    exact hnot ⟨ho, hreached⟩

/-- A record that is accepted lowers no incarnation, if it keeps them. -/
theorem le_objectIncarnationOf_accepts {e : Evidence} {t : Timestamp}
    (ha : Accepts limits historyPerKey s e m s') (hc : keepsIncarnation s (.ingest e t io) = true)
    (object : ObjectId) : objectIncarnationOf s object ≤ objectIncarnationOf s' object := by
  have hsame : ∀ owner, sessionIsFenced s' owner = sessionIsFenced s owner :=
    sessionIsFenced_congr ha.sources
  rcases objectIncarnationOf_cases s object with hone | ⟨owner, f, hf, hfenced, htarget⟩
  · rw [hone]
    exact one_le_objectIncarnationOf s' object
  have hfenced' := (hsame owner).trans hfenced
  have hold := winner_of_reincarnationRecord hf
  rcases winner_cases ha (.reincarnation object owner) with heq | ⟨u, hu, hk, ho, heq⟩
  · rw [htarget]
    exact target_le_of_winner (heq.trans hold) hfenced'
  -- The record that gave the incarnation is replaced by a reincarnation of the same session.
  obtain ⟨v, rfl⟩ := eq_reincarnation_of_key hk
  obtain ⟨p, hp, rfl, rfl⟩ := of_reincarnation_mem hu
  obtain rfl : e.key = owner := by
    simpa [ClaimUpdate.key] using hk
  have hnew := target_le_of_winner heq hfenced'
  cases hexists : objectExists s p.object with
  | true => exact UInt64.le_trans (UInt64.le_of_lt (lt_target_of_insert hexists ho)) hnew
  | false =>
    have hnewer := lt_of_insert ha ho hold
    rw [ha.generation] at hnewer
    unfold keepsIncarnation at hc
    simp only [hp, hexists, hfenced, hf, Option.all_some, Bool.false_or, Bool.or_eq_true,
      decide_eq_true_eq] at hc
    rw [htarget]
    rcases hc with (hle | hle) | hreached
    · exact absurd hnewer (UInt64.not_lt.mpr hle)
    · exact UInt64.le_trans hle hnew
    · refine le_of_reachedWithout hreached ?_
      intro owner' hgone hfenced''
      refine ⟨?_, (hsame owner').trans hfenced''⟩
      rcases winner_cases ha (.reincarnation p.object owner') with heq' | ⟨u', hu', hk', -⟩
      · exact heq'
      · obtain ⟨v', rfl⟩ := eq_reincarnation_of_key hk'
        have howner : e.key = owner' := by
          simpa [ClaimUpdate.key] using hk'
        simp [howner] at hgone

theorem le_objectIncarnationOf_of_same (hw : s'.winner = s.winner) (hsources : s'.sources = s.sources)
    (object : ObjectId) : objectIncarnationOf s object ≤ objectIncarnationOf s' object := by
  rcases objectIncarnationOf_cases s object with hone | ⟨owner, f, hf, hfenced, htarget⟩
  · rw [hone]
    exact one_le_objectIncarnationOf s' object
  · have hwin := winner_of_reincarnationRecord hf
    rw [← hw] at hwin
    rw [htarget]
    exact target_le_of_winner hwin ((sessionIsFenced_congr hsources owner).trans hfenced)

/-- **A request that keeps the incarnations lowers none.** -/
theorem le_objectIncarnationOf_effect {q : Request} {es : List Evidence}
    (h : Effect limits historyPerKey s q es s') (hc : keepsIncarnation s q = true) (object : ObjectId) :
    objectIncarnationOf s object ≤ objectIncarnationOf s' object := by
  cases h with
  | nothing => exact UInt64.le_refl _
  | opened d i t t' io hadm => exact le_objectIncarnationOf_openState hc object
  | touched q key session hkey => exact UInt64.le_refl _
  | accepted t io ha => exact le_objectIncarnationOf_accepts ha hc object
  | restarted env s₀ hcore =>
    have hq : Quiet limits s (clearVolatile s₀) := .restarted s₀ hcore
    have hcore' : (clearVolatile s₀).core = s.core := by rw [core_clearVolatile, hcore]
    exact le_objectIncarnationOf_of_same (winner_quiet hq) (sources_of_core hcore') object

end Step

/-! ### Claims against replaced units -/

/-- The state without the claims about positions and lifecycles that were made against an incarnation
that had been replaced in an earlier state. -/
def dropReplaced (earlier s : RegistryState) : RegistryState :=
  { s with
    subjectRecords := dropRecords (fun subject _ f =>
      decide (f.value.objectIncarnation < objectIncarnationOf earlier subject.object)) s.subjectRecords
    portRecords := dropRecords (fun _ _ f =>
      decide (f.value.objectIncarnation < objectIncarnationOf earlier f.value.subject.object))
      s.portRecords
    lifecycleRecords := dropRecords (fun object _ f =>
      decide (f.value.objectIncarnation < objectIncarnationOf earlier object)) s.lifecycleRecords }

section Replaced

variable {earlier s : RegistryState}

/-- A record against the current incarnation is not against a replaced one. -/
theorem not_replaced (h : ∀ object, objectIncarnationOf earlier object ≤ objectIncarnationOf s object)
    {object : ObjectId} {incarnation : ObjectIncarnation}
    (hcurrent : incarnation = objectIncarnationOf s object) :
    decide (incarnation < objectIncarnationOf earlier object) = false := by
  rw [decide_eq_false_iff_not, hcurrent]
  exact UInt64.not_lt.mpr (h object)

theorem objectIncarnationOf_dropReplaced (object : ObjectId) :
    objectIncarnationOf (dropReplaced earlier s) object = objectIncarnationOf s object := rfl

section

variable (h : ∀ object, objectIncarnationOf earlier object ≤ objectIncarnationOf s object)

include h

theorem lifecycleActionOf_dropReplaced (object : ObjectId) :
    lifecycleActionOf (dropReplaced earlier s) object = lifecycleActionOf s object := by
  have hrecords : ((unfenced (dropReplaced earlier s) (dropReplaced earlier s).lifecycleRecords
      object).filter fun entry => entry.2.value.objectIncarnation == objectIncarnationOf s object) =
      (unfenced s s.lifecycleRecords object).filter fun entry =>
        entry.2.value.objectIncarnation == objectIncarnationOf s object := by
    refine (((keyOrdered_recordsOf _ _).filter _).filter _).ext
      (((keyOrdered_recordsOf _ _).filter _).filter _) fun entry => ?_
    constructor
    · intro hentry
      obtain ⟨hmem, hcurrent⟩ := List.mem_filter.mp hentry
      obtain ⟨hfind, hfenced⟩ := mem_unfenced.mp hmem
      exact List.mem_filter.mpr
        ⟨mem_unfenced.mpr ⟨(find₂_dropRecords_eq_some.mp hfind).1, hfenced⟩, hcurrent⟩
    · intro hentry
      obtain ⟨hmem, hcurrent⟩ := List.mem_filter.mp hentry
      obtain ⟨hfind, hfenced⟩ := mem_unfenced.mp hmem
      have hkept : OrdMap.find₂ (dropReplaced earlier s).lifecycleRecords object entry.1 =
          some entry.2 :=
        find₂_dropRecords_eq_some.mpr ⟨hfind, not_replaced h (beq_iff_eq.mp hcurrent)⟩
      exact List.mem_filter.mpr ⟨mem_unfenced.mpr ⟨hkept, hfenced⟩, hcurrent⟩
  unfold lifecycleActionOf
  rw [lifecycleCandidates_unfenced, lifecycleCandidates_unfenced]
  simp only [objectIncarnationOf_dropReplaced, hrecords]
  rfl

theorem objectExcluded_dropReplaced (object : ObjectId) :
    objectExcluded (dropReplaced earlier s) object = objectExcluded s object := by
  unfold objectExcluded
  rw [lifecycleActionOf_dropReplaced h]

theorem deriveSubject_dropReplaced (subject : ObjectSideRef) (policy : ValidationPolicy) :
    deriveSubject (dropReplaced earlier s) subject policy = deriveSubject s subject policy := by
  have hrecords : sideRecords (dropReplaced earlier s) subject policy = sideRecords s subject policy := by
    refine (keyOrdered_sideRecords _ _ _).ext (keyOrdered_sideRecords _ _ _) fun record => ?_
    rw [mem_sideRecords, mem_sideRecords]
    refine and_congr_right fun _ => and_congr_left fun hrest => ?_
    refine find₂_dropRecords_eq_some.trans (and_iff_left ?_)
    exact not_replaced h hrest.2.2
  rw [deriveSubject_eq_derivationFrom, deriveSubject_eq_derivationFrom, hrecords]
  rfl

theorem livePortRecords_dropReplaced (port : PortRef) (policy : ValidationPolicy) :
    livePortRecords (dropReplaced earlier s) port policy = livePortRecords s port policy := by
  refine (keyOrdered_livePortRecords _ _ _).ext (keyOrdered_livePortRecords _ _ _) fun record => ?_
  rw [countsAt_iff, countsAt_iff]
  constructor
  · intro hc
    refine ⟨(find₂_dropRecords_eq_some.mp hc.stored).1, hc.unfenced, hc.participates, hc.registered, ?_,
      hc.current, ?_⟩
    · rw [← objectExcluded_dropReplaced h]
      exact hc.included
    · intro hempty
      obtain ⟨entry, hentry, hrest⟩ := hc.still hempty
      exact ⟨entry, (find₂_dropRecords_eq_some.mp hentry).1, hrest⟩
  · intro hc
    refine ⟨find₂_dropRecords_eq_some.mpr ⟨hc.stored, not_replaced h hc.current⟩, hc.unfenced,
      hc.participates, hc.registered, ?_, hc.current, ?_⟩
    · rw [objectExcluded_dropReplaced h]
      exact hc.included
    · intro hempty
      obtain ⟨entry, hentry, hattached, hport, hslot, hincarnation, hgeneration⟩ := hc.still hempty
      exact ⟨entry, find₂_dropRecords_eq_some.mpr
        ⟨hentry, not_replaced h (hincarnation.trans hc.current)⟩, hattached, hport, hslot,
        hincarnation, hgeneration⟩

theorem derivePortView_dropReplaced (limits : Limits) (port : PortRef) (policy : ValidationPolicy) :
    derivePortView (dropReplaced earlier s) limits port policy = derivePortView s limits port policy :=
  derivePortView_congr limits (livePortRecords_dropReplaced h port policy) rfl fun subject _ =>
    ⟨deriveSubject_dropReplaced h subject policy, rfl⟩

/-- An object's history lists what was said of the units that were replaced; the rest of the answer
does not depend on it. -/
theorem deriveObjectView_dropReplaced (limits : Limits) (object : ObjectId) {options : QueryOptions}
    (hhistory : options.includeHistory = false) :
    deriveObjectView (dropReplaced earlier s) limits object options =
      deriveObjectView s limits object options := by
  have hsubject : ∀ policy, (deriveSubject (dropReplaced earlier s) · policy) =
      (deriveSubject s · policy) :=
    fun policy => funext fun subject => deriveSubject_dropReplaced h subject policy
  have hside : deriveSideView (dropReplaced earlier s) options.validationPolicy =
      deriveSideView s options.validationPolicy := by
    funext reference
    unfold deriveSideView
    rw [deriveSubject_dropReplaced h]
    rfl
  have hlifecycle : ∀ hasAttachment hasDetachment,
      deriveLifecycle (dropReplaced earlier s) object hasAttachment hasDetachment =
        deriveLifecycle s object hasAttachment hasDetachment := by
    intro hasAttachment hasDetachment
    unfold deriveLifecycle
    rw [lifecycleActionOf_dropReplaced h]
  unfold deriveObjectView
  simp only [hsubject, hside, hlifecycle, hhistory, Bool.false_eq_true, if_false]
  rfl

end

end Replaced

/-! ### Runs -/

/-- **The incarnation of an object never decreases, and what was replaced stays without influence**,
so long as every request keeps the incarnations. -/
theorem replacement_is_final {r r' : Registry} {options : RegistryOptions}
    {requests rest : List Request} {es : List Evidence} (h : r.ReachedBy options requests es)
    (horderly : Orderly options (requests ++ rest)) (hrun : r.run rest = .ok r')
    (hkeeps : r.meets keepsIncarnation rest = true) :
    (∀ object, objectIncarnationOf r.state object ≤ objectIncarnationOf r'.state object) ∧
    (∀ port policy, { r' with state := dropReplaced r.state r'.state }.queryPort port policy =
      r'.queryPort port policy) ∧
    ∀ object queryOptions, queryOptions.includeHistory = false →
      { r' with state := dropReplaced r.state r'.state }.queryObject object queryOptions =
        r'.queryObject object queryOptions := by
  obtain ⟨-, -, -, -, id, openedAt, htrace⟩ := h.trace
  have hmono : ∀ object, objectIncarnationOf r.state object ≤ objectIncarnationOf r'.state object := by
    refine (h.running horderly).induction (c := keepsIncarnation)
      (motive := fun _ s => ∀ object, objectIncarnationOf r.state object ≤ objectIncarnationOf s object)
      ?_ rfl rfl htrace.consistent (fun _ => UInt64.le_refl _) hkeeps hrun
    intro es s q es' s' _ _ hc hle heffect object
    exact UInt64.le_trans (hle object) (le_objectIncarnationOf_effect heffect hc object)
  refine ⟨hmono, ?_, ?_⟩
  · intro port policy
    rw [Registry.queryPort_cases, Registry.queryPort_cases, derivePortView_dropReplaced hmono]
    rfl
  · intro object queryOptions hhistory
    rw [Registry.queryObject_cases, Registry.queryObject_cases,
      deriveObjectView_dropReplaced hmono r'.limits object hhistory]
    rfl

/-- Source 2 places a side of object 9, and source 1 then replaces the object. -/
def sampleReplaced : List Request :=
  [Registry.sampleOpen 1 1 5, Registry.sampleOpen 2 1 5,
    Registry.sampleIngest 1 1 1 Registry.sampleEndpoint,
    Registry.sampleIngest 1 1 2 (Registry.sampleObject 9),
    Registry.sampleIngest 2 1 1 (Registry.samplePlace 9 0 0 0),
    Registry.sampleIngest 1 1 3
      (.reincarnateObject { object := .fromParts 0 9, fromIncarnation := 1 })]

theorem orderly_sampleReplaced (source : UInt64) :
    Orderly {} (sampleReplaced ++ [Registry.sampleOpen source 2 5]) :=
  Registry.orderly_of_not_mem (by simp [sampleReplaced, Registry.sampleOpen, Registry.sampleIngest])

/-- The registry after the source starts again. -/
def Registry.restarted (r : Registry) (source : UInt64) : Registry :=
  (r.openSession { id := .fromParts 0 source, authority := { rank := 5 } } 2 1 2 .written).1

/-- Source 2 starts again, which leaves the replacement alone. -/
theorem replacement_is_final_sample :
    ∃ (r r' : Registry) (es : List Evidence), r.ReachedBy {} sampleReplaced es ∧
      r.run [Registry.sampleOpen 2 2 5] = .ok r' ∧
      r.meets keepsIncarnation [Registry.sampleOpen 2 2 5] = true ∧
      objectIncarnationOf r.state (.fromParts 0 9) = 2 ∧
      2 ≤ objectIncarnationOf r'.state (.fromParts 0 9) := by
  have horderly := orderly_sampleReplaced 2
  obtain ⟨r, es, hr, hp⟩ := Registry.exists_reached {} sampleReplaced
    (fun r _ => r.meets keepsIncarnation [Registry.sampleOpen 2 2 5] &&
      decide (objectIncarnationOf r.state (.fromParts 0 9) = 2)) (by decide +kernel)
  rw [Bool.and_eq_true, decide_eq_true_eq] at hp
  have hrun : r.run [Registry.sampleOpen 2 2 5] = .ok (r.restarted 2) := rfl
  have hle := (replacement_is_final hr horderly hrun hp.1).1 (.fromParts 0 9)
  rw [hp.2] at hle
  exact ⟨r, _, es, hr, hrun, hp.1, hp.2, hle⟩

/-- Source 1 starts again, and its replacement is undone: the side that source 2 had placed before it
is attached again. -/
theorem restart_undoes_replacement :
    ∃ (r r' : Registry) (es : List Evidence), r.ReachedBy {} sampleReplaced es ∧
      Orderly {} (sampleReplaced ++ [Registry.sampleOpen 1 2 5]) ∧
      r.run [Registry.sampleOpen 1 2 5] = .ok r' ∧
      objectIncarnationOf r.state (.fromParts 0 9) = 2 ∧
      objectIncarnationOf r'.state (.fromParts 0 9) = 1 ∧
      (derivePortView r.state r.limits ⟨.fromParts 0 7, 0⟩ .includeAll).state = .unknown ∧
      (derivePortView r'.state r'.limits ⟨.fromParts 0 7, 0⟩ .includeAll).state = .attached := by
  obtain ⟨r, es, hr, hp⟩ := Registry.exists_reached {} sampleReplaced
    (fun r _ => decide (objectIncarnationOf r.state (.fromParts 0 9) = 2 ∧
      objectIncarnationOf (r.restarted 1).state (.fromParts 0 9) = 1 ∧
      (derivePortView r.state r.limits ⟨.fromParts 0 7, 0⟩ .includeAll).state = .unknown ∧
      (derivePortView (r.restarted 1).state (r.restarted 1).limits ⟨.fromParts 0 7, 0⟩
        .includeAll).state = .attached)) (by decide +kernel)
  exact ⟨r, r.restarted 1, es, hr, orderly_sampleReplaced 1, rfl, of_decide_eq_true hp⟩

end CableRegistry
