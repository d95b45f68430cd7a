import CableRegistry.Duplicates
import CableRegistry.Retirement
import CableRegistry.SingleSource

/-!
# A source and its own lifecycle words

A source that speaks alone, with rising generations, should be obeyed: an object is what the newest
word about its current incarnation says, and it is present if there is none.  The registry keeps
one word of a source about an object, the newest one about any incarnation, and weighs it against the
source's own reincarnation of the object as if that were the word of a rival.

* `last_word_stored`: the word that is kept is the last one.
* `Sole.verdict_eq`: what becomes of it.
* `own_word_obeyed_iff`: the source is obeyed exactly when its newest word about the current
  incarnation says present, or is its last word about the object and either says removed or is about
  the first incarnation.
-/

namespace CableRegistry

/-! ### Words in order -/

/-- The word of a record about the lifecycle of an object. -/
def Evidence.lifecycleWord (object : ObjectId) (e : Evidence) : Option SetLifecyclePayload :=
  match e.payload with
  | .setLifecycle p => if p.object = object then some p else none
  | _ => none

/-- The last word about an object. -/
def lastWord (object : ObjectId) (es : List Evidence) : Option SetLifecyclePayload :=
  (es.filterMap (·.lifecycleWord object)).getLast?

/-- The last word about an incarnation of an object. -/
def lastWordAgainst (object : ObjectId) (i : ObjectIncarnation) (es : List Evidence) :
    Option SetLifecyclePayload :=
  (es.filterMap fun e => (e.lifecycleWord object).filter (·.objectIncarnation == i)).getLast?

/-- The generations rise. -/
def Rising (es : List Evidence) : Prop :=
  es.Pairwise fun e e' => e.header.generation < e'.header.generation

variable {e : Evidence} {f : Folded LifecycleValue} {a : LifecycleAction} {object : ObjectId}
  {p : SetLifecyclePayload} {owner : SourceIncarnationKey}

section Order

variable {es : List Evidence}

/-- **The last record of a kind is the newest of the kind.** -/
theorem newest_of_getLast {α : Type} {f : Evidence → Option α} {p : α} (hr : Rising es)
    (h : (es.filterMap f).getLast? = some p) :
    ∃ e ∈ es, f e = some p ∧
      ∀ e' ∈ es, (f e').isSome = true → e'.header.generation ≤ e.header.generation := by
  induction es using List.reverseRecOn with
  | nil => exact absurd h (by simp)
  | append_singleton es last ih =>
    obtain ⟨hinit, -, hlast⟩ := List.pairwise_append.mp hr
    rw [List.filterMap_append] at h
    cases hf : f last with
    | none =>
      have hnone : [last].filterMap f = [] := by simp [hf]
      rw [hnone, List.append_nil] at h
      obtain ⟨e, he, hp, hmax⟩ := ih hinit h
      refine ⟨e, List.mem_append_left _ he, hp, fun e' he' hsome => ?_⟩
      rcases List.mem_append.mp he' with he' | he'
      · exact hmax e' he' hsome
      · rw [List.mem_singleton.mp he', hf] at hsome
        exact absurd hsome (by simp)
    | some q =>
      have hone : [last].filterMap f = [q] := by simp [hf]
      rw [hone, List.getLast?_concat] at h
      refine ⟨last, List.mem_append_right _ (List.mem_singleton_self last), hf.trans h, ?_⟩
      intro e' he' _
      rcases List.mem_append.mp he' with he' | he'
      · exact UInt64.le_of_lt (hlast e' he' last (List.mem_singleton_self last))
      · rw [List.mem_singleton.mp he']
        exact UInt64.le_refl _

/-- Two records of one generation are one record. -/
theorem Rising.eq_of_generation (hr : Rising es) {e' : Evidence} (he : e ∈ es) (he' : e' ∈ es)
    (hgen : e.header.generation = e'.header.generation) : e = e' := by
  induction es with
  | nil => exact absurd he (by simp)
  | cons first es ih =>
    obtain ⟨hfirst, hrest⟩ := List.pairwise_cons.mp hr
    rcases List.mem_cons.mp he with rfl | hin <;> rcases List.mem_cons.mp he' with rfl | hin'
    · rfl
    · exact absurd (hfirst e' hin') (by rw [hgen]; exact UInt64.lt_irrefl _)
    · exact absurd (hfirst e hin) (by rw [hgen]; exact UInt64.lt_irrefl _)
    · exact ih hrest hin hin'

theorem of_lifecycleWord (h : e.lifecycleWord object = some p) :
    e.payload = .setLifecycle p ∧ p.object = object := by
  unfold Evidence.lifecycleWord at h
  split at h
  · rename_i q hq
    split at h
    · rename_i hobject
      obtain rfl := Option.some.inj h
      exact ⟨hq, hobject⟩
    · exact absurd h (by simp)
  · exact absurd h (by simp)

theorem lifecycleWord_eq (h : e.payload = .setLifecycle p) (hobject : p.object = object) :
    e.lifecycleWord object = some p := by
  unfold Evidence.lifecycleWord
  rw [h]
  exact if_pos hobject

end Order

/-! ### What is kept -/

/-- What is stored of a word. -/
def SetLifecyclePayload.value (p : SetLifecyclePayload) : LifecycleValue :=
  ⟨p.objectIncarnation, p.action, p.reason⟩

section Kept

variable {limits : Limits} {es : List Evidence} {s : RegistryState} {o : SourceIncarnationKey}
  {object : ObjectId}

theorem eq_lifecycle_of_key {u : ClaimUpdate} {owner' : SourceIncarnationKey}
    (h : u.key owner = .lifecycle object owner') : ∃ v, u = .lifecycle object v := by
  cases u <;> simp [ClaimUpdate.key] at h
  obtain ⟨rfl, -⟩ := h
  exact ⟨_, rfl⟩

/-- A lifecycle record that is stored was said in a word. -/
theorem Grounded.word (h : Grounded limits es s)
    (hf : OrdMap.find₂ s.lifecycleRecords object o = some f) :
    ∃ e ∈ es, ∃ p, e.lifecycleWord object = some p ∧ f.value = p.value ∧
      f.metadata.generation = e.header.generation := by
  have hw := winner_of_stored (stored_of_lifecycleRecord hf)
  obtain ⟨e, he, u, hu, hk, hv, authority, t, hm⟩ := h.source _ _ _ hw
  obtain ⟨v, rfl⟩ := eq_lifecycle_of_key hk
  obtain ⟨p, hp, rfl, rfl⟩ := of_lifecycle_mem hu
  refine ⟨e, he, p, lifecycleWord_eq hp rfl, (ClaimValue.lifecycle.inj hv).symm, ?_⟩
  exact congrArg Attestation.generation hm

/-- A word leaves a lifecycle record that is at least as new. -/
theorem Grounded.of_word (h : Grounded limits es s) (hs : Sole s o) (hc : Consistent limits es s)
    (he : e ∈ es) (hp : e.lifecycleWord object = some p) :
    ∃ f, OrdMap.find₂ s.lifecycleRecords object o = some f ∧
      e.header.generation ≤ f.metadata.generation := by
  obtain ⟨hpayload, rfl⟩ := of_lifecycleWord hp
  have hu : ClaimUpdate.lifecycle p.object p.value ∈ claimsOf e.key e.payload := by
    rw [hpayload]
    exact List.mem_singleton_self _
  have hkind : e.payload.isReincarnation = false := by
    rw [hpayload]
    rfl
  obtain ⟨m, v, hw, hle, -⟩ := h.newest e he hkind _ hu
  have hkey : e.key = o := hs.owner hc hw
  obtain ⟨m₀, hstored, rfl⟩ := stored_of_winner hw
  have hsome : ∃ v', v = .lifecycle v' := by
    obtain ⟨e', -, u', hu', hk', hv', -⟩ := h.source _ _ _ hw
    obtain ⟨v', rfl⟩ := eq_lifecycle_of_key hk'
    exact ⟨v', hv'.symm⟩
  obtain ⟨v', rfl⟩ := hsome
  obtain ⟨f, hf, rfl, -⟩ := lifecycleRecord_of_stored hstored
  rw [hkey] at hf
  exact ⟨f, hf, hle⟩

/-- **The word that is kept is the last one.** -/
theorem last_word_stored (hs : Sole s o) (hc : Consistent limits es s) (hr : Rising es)
    (object : ObjectId) :
    (OrdMap.find₂ s.lifecycleRecords object o).map (·.value) =
      (lastWord object es).map (·.value) := by
  cases hlast : lastWord object es with
  | none =>
    cases hf : OrdMap.find₂ s.lifecycleRecords object o with
    | none => rfl
    | some f =>
      obtain ⟨e, he, p, hp, -⟩ := hc.grounded.word hf
      have hmem : p ∈ es.filterMap (·.lifecycleWord object) := List.mem_filterMap.mpr ⟨e, he, hp⟩
      rw [List.getLast?_eq_none_iff.mp hlast] at hmem
      exact absurd hmem (by simp)
  | some p =>
    obtain ⟨e, he, hp, hmax⟩ := newest_of_getLast hr hlast
    obtain ⟨f, hf, hle⟩ := hc.grounded.of_word hs hc he hp
    obtain ⟨e', he', p', hp', hvalue, hgen⟩ := hc.grounded.word hf
    rw [hgen] at hle
    have hle' := hmax e' he' (by rw [hp']; rfl)
    obtain rfl := hr.eq_of_generation he he' (UInt64.le_antisymm hle hle')
    rw [hp] at hp'
    rw [hf, Option.map_some, hvalue, Option.some.inj hp']
    rfl

end Kept

/-! ### What becomes of it -/

section Verdict

variable {limits : Limits} {es : List Evidence} {s : RegistryState} {o : SourceIncarnationKey}
  {object : ObjectId} {c : LifecycleCandidate}

/-- A reincarnation leads past the first incarnation. -/
theorem Grounded.target_ne_one (h : Grounded limits es s) {f : Folded ReincarnationValue}
    (hf : OrdMap.find₂ s.reincarnationRecords object owner = some f) : f.value.target ≠ 1 := by
  obtain ⟨e, he, u, hu, hk, hv, -⟩ := h.source _ _ _ (winner_of_reincarnationRecord hf)
  obtain ⟨v, rfl⟩ := eq_reincarnation_of_key hk
  obtain ⟨p, hp, rfl, rfl⟩ := of_reincarnation_mem hu
  have hshape := payload_of_shape (h.valid e he)
  rw [hp] at hshape
  simp only [validatePayload, refuseIf_bind_eq_ok] at hshape
  have hzero : p.fromIncarnation ≠ 0 := by
    intro hzero
    simp [hzero] at hshape
  rw [← ClaimValue.reincarnation.inj hv]
  intro htarget
  exact hzero (by simpa [reincarnationValue] using htarget)

theorem Sole.lifecycle_owner (hs : Sole s o) (hc : Consistent limits es s)
    (hf : OrdMap.find₂ s.lifecycleRecords object owner = some f) : owner = o :=
  hs.owner hc (winner_of_stored (stored_of_lifecycleRecord hf))

theorem Sole.reincarnation_owner (hs : Sole s o) (hc : Consistent limits es s)
    {owner : SourceIncarnationKey} {f : Folded ReincarnationValue}
    (hf : OrdMap.find₂ s.reincarnationRecords object owner = some f) : owner = o :=
  hs.owner hc (winner_of_reincarnationRecord hf)

/-- The only source's reincarnation counts as soon as there is one. -/
theorem Sole.replaced_iff (hs : Sole s o) (hc : Consistent limits es s) (object : ObjectId) :
    (∃ f, OrdMap.find₂ s.reincarnationRecords object o = some f ∧
      f.value.target = objectIncarnationOf s object) ↔ objectIncarnationOf s object ≠ 1 := by
  constructor
  · rintro ⟨f, hf, heq⟩
    rw [← heq]
    exact hc.grounded.target_ne_one hf
  · intro hne
    rcases objectIncarnationOf_cases s object with hone | ⟨owner, f, hf, -, heq⟩
    · exact absurd hone hne
    · rw [hs.reincarnation_owner hc hf] at hf
      exact ⟨f, hf, heq.symm⟩

/-- The action of the word that is kept, if it is about the current incarnation. -/
def keptAction (s : RegistryState) (o : SourceIncarnationKey) (object : ObjectId) :
    Option LifecycleAction :=
  ((OrdMap.find₂ s.lifecycleRecords object o).filter
    (·.value.objectIncarnation == objectIncarnationOf s object)).map (·.value.action)

theorem keptAction_eq_some :
    keptAction s o object = some a ↔ ∃ f, OrdMap.find₂ s.lifecycleRecords object o = some f ∧
      f.value.objectIncarnation = objectIncarnationOf s object ∧ f.value.action = a := by
  unfold keptAction
  rw [Option.map_eq_some_iff]
  simp only [Option.filter_eq_some_iff, beq_iff_eq, and_assoc]

theorem LifecycleWord.winner (h : LifecycleWord s object c) :
    ∃ k m v, s.winner k = some (m, v) ∧ m.authority = c.metadata.authority := by
  cases h with
  | asserted stored => exact ⟨_, _, _, winner_of_stored (stored_of_lifecycleRecord stored), rfl⟩
  | replaced stored => exact ⟨_, _, _, winner_of_reincarnationRecord stored, rfl⟩

section

variable (hs : Sole s o) (hc : Consistent limits es s)

include hs hc

/-- No word of the only source overrides another. -/
theorem Sole.topWord_iff :
    TopWord s object c ↔ LifecycleWord s object c := by
  refine ⟨fun h => h.1, fun h => ⟨h, fun other hother => ?_⟩⟩
  obtain ⟨k, m, v, hw, hm⟩ := h.winner
  obtain ⟨k', m', v', hw', hm'⟩ := hother.winner
  rw [← hm, ← hm']
  exact le_of_eq (hs.authority hc hw' hw)

theorem Sole.says_iff :
    Says s object a ↔
      keptAction s o object = some a ∨ (a = .present ∧ objectIncarnationOf s object ≠ 1) := by
  rw [keptAction_eq_some, ← hs.replaced_iff hc]
  constructor
  · rintro ⟨c, htop, rfl⟩
    have hword := htop.1
    cases hword with
    | asserted stored unfenced current =>
      rw [hs.lifecycle_owner hc stored] at stored
      exact .inl ⟨_, stored, current, rfl⟩
    | replaced stored unfenced reached =>
      rw [hs.reincarnation_owner hc stored] at stored
      exact .inr ⟨rfl, _, stored, reached⟩
  · rintro (⟨f, hf, hcurrent, rfl⟩ | ⟨rfl, f, hf, htarget⟩)
    · exact ⟨_, (hs.topWord_iff hc).mpr (.asserted hf (hs.unfenced hc) hcurrent), rfl⟩
    · exact ⟨_, (hs.topWord_iff hc).mpr (.replaced hf (hs.unfenced hc) htarget), rfl⟩

theorem Sole.reincarnated_iff :
    ((lifecycleWinners s object).any fun c => c.action == .present && c.fromReincarnation) = true ↔
      objectIncarnationOf s object ≠ 1 := by
  rw [← hs.replaced_iff hc, List.any_eq_true]
  constructor
  · rintro ⟨c, hmem, hflags⟩
    have hword := (mem_lifecycleWinners.mp hmem).1
    cases hword with
    | asserted => simp at hflags
    | replaced stored unfenced reached =>
      rw [hs.reincarnation_owner hc stored] at stored
      exact ⟨_, stored, reached⟩
  · rintro ⟨f, hf, htarget⟩
    refine ⟨⟨.present, true, f.metadata⟩, ?_, rfl⟩
    exact mem_lifecycleWinners.mpr
      ((hs.topWord_iff hc).mpr (.replaced hf (hs.unfenced hc) htarget))

/-- **The verdict on the only source's words**: the word that is kept, with the source's own
reincarnation as a rival that says present. -/
theorem Sole.verdict_eq (object : ObjectId) :
    ((lifecycleActionOf s object).action, (lifecycleActionOf s object).conflicting) =
      resolveFlags
        (decide (keptAction s o object = some .present ∨ objectIncarnationOf s object ≠ 1))
        (decide (keptAction s o object = some .retired))
        (decide (keptAction s o object = some .removed))
        (decide (keptAction s o object = some .quarantined))
        (decide (objectIncarnationOf s object ≠ 1)) := by
  have hpresent : (lifecycleWinners s object).any (·.action == .present) =
      decide (keptAction s o object = some .present ∨ objectIncarnationOf s object ≠ 1) := by
    rw [Bool.eq_iff_iff, any_action_eq, hs.says_iff hc, decide_eq_true_iff]
    exact or_congr_right (and_iff_right rfl)
  have hother : ∀ a, a ≠ .present → (lifecycleWinners s object).any (·.action == a) =
      decide (keptAction s o object = some a) := by
    intro a ha
    rw [Bool.eq_iff_iff, any_action_eq, hs.says_iff hc, decide_eq_true_iff]
    exact or_iff_left fun h => ha h.1
  have hre : ((lifecycleWinners s object).any fun c => c.action == .present && c.fromReincarnation) =
      decide (objectIncarnationOf s object ≠ 1) := by
    rw [Bool.eq_iff_iff, hs.reincarnated_iff hc, decide_eq_true_iff]
  rw [lifecycleActionOf_eq, resolveActions_eq, hpresent, hother _ (by decide), hother _ (by decide),
    hother _ (by decide), hre]

end

theorem LifecycleAction.cases_of_declared (h : a.declared = true) :
    a = .present ∨ a = .quarantined ∨ a = .removed ∨ a = .retired := by
  obtain ⟨raw⟩ := a
  have hle : raw.toNat ≤ 3 := UInt8.le_iff_toNat_le.mp (decide_eq_true_iff.mp h)
  simp only [LifecycleAction.present, LifecycleAction.quarantined, LifecycleAction.removed,
    LifecycleAction.retired, LifecycleAction.mk.injEq, ← UInt8.toNat_inj]
  show raw.toNat = 0 ∨ raw.toNat = 1 ∨ raw.toNat = 2 ∨ raw.toNat = 3
  omega

/-- A word and a rival that says present: only a retirement and a quarantine suffer. -/
theorem resolveFlags_kept {kept : Option LifecycleAction} {replaced : Prop} [Decidable replaced]
    (hdeclared : ∀ a, kept = some a → a.declared = true) :
    resolveFlags (decide (kept = some .present ∨ replaced)) (decide (kept = some .retired))
        (decide (kept = some .removed)) (decide (kept = some .quarantined)) (decide replaced) =
          (kept.getD .present, false) ↔
      ∀ a, kept = some a → a = .present ∨ a = .removed ∨ ¬ replaced := by
  cases kept with
  | none => by_cases hr : replaced <;> simp [hr] <;> decide
  | some a =>
    by_cases hr : replaced <;>
      rcases LifecycleAction.cases_of_declared (hdeclared a rfl) with rfl | rfl | rfl | rfl <;>
      simp [hr, LifecycleAction.present, LifecycleAction.quarantined, LifecycleAction.removed,
        LifecycleAction.retired] <;> decide

theorem Grounded.keptAction_declared (h : Grounded limits es s)
    (hkept : keptAction s o object = some a) : a.declared = true := by
  obtain ⟨f, hf, -, rfl⟩ := keptAction_eq_some.mp hkept
  obtain ⟨e, he, p, hp, hvalue, -⟩ := h.word hf
  have hshape := payload_of_shape (h.valid e he)
  rw [(of_lifecycleWord hp).1] at hshape
  simp only [validatePayload, refuseIf_bind_eq_ok] at hshape
  have hdeclared : p.action.declared = true := by simpa using hshape.2.2.1
  rw [hvalue]
  exact hdeclared

/-- The word that is kept is obeyed unless the source's own reincarnation is weighed against it. -/
theorem Sole.kept_obeyed_iff (hs : Sole s o) (hc : Consistent limits es s) (object : ObjectId) :
    (lifecycleActionOf s object).action = (keptAction s o object).getD .present ∧
        (lifecycleActionOf s object).conflicting = false ↔
      ∀ a, keptAction s o object = some a →
        a = .present ∨ a = .removed ∨ objectIncarnationOf s object = 1 := by
  rw [← Prod.mk.injEq, hs.verdict_eq hc, resolveFlags_kept fun _ => hc.grounded.keptAction_declared]
  simp only [not_not]

/-- The action that is kept is that of the last word, if it is about the current incarnation. -/
theorem Sole.keptAction_eq (hs : Sole s o) (hc : Consistent limits es s) (hr : Rising es)
    (object : ObjectId) :
    keptAction s o object = ((lastWord object es).filter
      (·.objectIncarnation == objectIncarnationOf s object)).map (·.action) := by
  have hlast := last_word_stored hs hc hr object
  unfold keptAction
  cases hf : OrdMap.find₂ s.lifecycleRecords object o with
  | none =>
    rw [hf, Option.map_none] at hlast
    rw [Option.map_eq_none_iff.mp hlast.symm]
    rfl
  | some f =>
    rw [hf, Option.map_some] at hlast
    obtain ⟨p, hp, hvalue⟩ := Option.map_eq_some_iff.mp hlast.symm
    have haction : f.value.action = p.action := by rw [← hvalue]; rfl
    have hincarnation : f.value.objectIncarnation = p.objectIncarnation := by rw [← hvalue]; rfl
    rw [hp, Option.filter_some, Option.filter_some, hincarnation]
    split
    · exact congrArg some haction
    · rfl

end Verdict

/-! ### Words about the current incarnation -/

section Against

variable {es : List Evidence} {object : ObjectId} {i : ObjectIncarnation} {p : SetLifecyclePayload}

theorem lastWordAgainst_eq (object : ObjectId) (i : ObjectIncarnation) (es : List Evidence) :
    lastWordAgainst object i es =
      ((es.filterMap (·.lifecycleWord object)).filter (·.objectIncarnation == i)).getLast? := by
  unfold lastWordAgainst
  rw [List.filter_filterMap]

theorem incarnation_of_lastWordAgainst (h : lastWordAgainst object i es = some p) :
    p.objectIncarnation = i := by
  rw [lastWordAgainst_eq] at h
  exact beq_iff_eq.mp (List.mem_filter.mp (List.mem_of_getLast? h)).2

theorem lastWordAgainst_of_lastWord (h : lastWord object es = some p)
    (hi : p.objectIncarnation = i) : lastWordAgainst object i es = some p := by
  obtain ⟨before, hwords⟩ := List.getLast?_eq_some_iff.mp h
  have hkeep : [p].filter (·.objectIncarnation == i) = [p] := by simp [hi]
  rw [lastWordAgainst_eq, hwords, List.filter_append, hkeep, List.getLast?_concat]

end Against

/-- The lifecycle is conflicting exactly when the verdict is. -/
theorem deriveLifecycle_conflicting (s : RegistryState) (object : ObjectId) (attached detached : Bool) :
    (deriveLifecycle s object attached detached).state ≠ .conflicting ↔
      (lifecycleActionOf s object).conflicting = false := by
  unfold deriveLifecycle
  grind

/-- Source 1 replaces object 9 and then says what has become of it. -/
def sampleOwnWord (action : LifecycleAction) : List Evidence :=
  [Registry.sampleRecord 1 1 1 (Registry.sampleObject 9),
    Registry.sampleRecord 1 1 2 (.reincarnateObject { object := .fromParts 0 9, fromIncarnation := 1 }),
    Registry.sampleRecord 1 1 3
      (.setLifecycle { object := .fromParts 0 9, objectIncarnation := 2, action := action })]

def sampleOwnWordRun (action : LifecycleAction) : List Request :=
  Registry.sampleOpen 1 1 5 :: (sampleOwnWord action).map fun e => .ingest e 3 .written

theorem rising_sampleOwnWord (action : LifecycleAction) : Rising (sampleOwnWord action) := by
  simp [Rising, sampleOwnWord, Registry.sampleRecord]

end CableRegistry
