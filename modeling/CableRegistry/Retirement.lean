import CableRegistry.Lifecycle
import CableRegistry.SingleSource

/-!
# Retirement

A session that is not fenced says that the current incarnation of an object is retired, no
word on the object has a higher authority, and no reincarnation of its authority reaches the
incarnation (`RetiredBy`).  Then the object is retired whatever the other words of that authority
are (`RetiredBy.verdict`).

A record of another source leaves the word where it is, and a record that is no reincarnation
leaves the incarnation.  What it can add is one word of its own authority (`Accepts.word_cases`).

* `retirement_sticky`: along any records of other sources of no higher authority, none of them a
  reincarnation, the object stays retired.
-/

namespace CableRegistry

/-! ### A retired object -/

/-- A word retires the object's current incarnation, no other word overrides it and no
reincarnation of its authority answers it. -/
structure RetiredBy (s : RegistryState) (object : ObjectId) (owner : SourceIncarnationKey)
    (f : Folded LifecycleValue) : Prop where
  stored : OrdMap.find₂ s.lifecycleRecords object owner = some f
  unfenced : sessionIsFenced s owner = false
  retired : f.value.action = .retired
  current : f.value.objectIncarnation = objectIncarnationOf s object
  top : ∀ word, LifecycleWord s object word → word.metadata.authority ≤ f.metadata.authority
  unanswered : ∀ word, LifecycleWord s object word → word.fromReincarnation = true →
    word.metadata.authority ≠ f.metadata.authority

theorem resolveFlags_retired (present removed quarantined : Bool) :
    resolveFlags present true removed quarantined false = (.retired, false) := by
  cases present <;> cases removed <;> cases quarantined <;> rfl

section Verdict

variable {s : RegistryState} {object : ObjectId} {owner : SourceIncarnationKey}
  {f : Folded LifecycleValue}

theorem RetiredBy.word (h : RetiredBy s object owner f) :
    LifecycleWord s object ⟨.retired, false, f.metadata⟩ := by
  have hword := LifecycleWord.asserted h.stored h.unfenced h.current
  rw [h.retired] at hword
  exact hword

/-- **The word decides**, whatever else is said at its authority. -/
theorem RetiredBy.verdict (h : RetiredBy s object owner f) :
    (lifecycleActionOf s object).action = .retired ∧
      (lifecycleActionOf s object).conflicting = false := by
  have hretired : (lifecycleWinners s object).any (·.action == .retired) = true :=
    any_action_eq.mpr ⟨_, ⟨h.word, h.top⟩, rfl⟩
  have hunanswered : ((lifecycleWinners s object).any fun c =>
      c.action == .present && c.fromReincarnation) = false := by
    rw [List.any_eq_false]
    intro c hc hboth
    obtain ⟨hword, hmax⟩ := mem_lifecycleWinners.mp hc
    have hfrom : c.fromReincarnation = true := (Bool.and_eq_true_iff.mp hboth).2
    have hge := hmax ⟨.retired, false, f.metadata⟩ h.word
    exact h.unanswered c hword hfrom (le_antisymm (h.top c hword) hge)
  have hverdict := lifecycleActionOf_eq s object
  rw [resolveActions_eq, hretired, hunanswered, resolveFlags_retired] at hverdict
  exact Prod.mk.inj hverdict

theorem RetiredBy.lifecycle (h : RetiredBy s object owner f) (a d : Bool) :
    (deriveLifecycle s object a d).state = .retired := by
  obtain ⟨haction, hconflicting⟩ := h.verdict
  unfold deriveLifecycle
  simp [haction, hconflicting]

end Verdict

/-- Whatever is asked about the object, it is retired. -/
def Registry.ReportsRetired (r : Registry) (object : ObjectId) : Prop :=
  (∀ a d, (deriveLifecycle r.state object a d).state = .retired) ∧
    ∀ options view, r.queryObject object options = .ok view → view.lifecycle = .retired

variable {f : Folded LifecycleValue} {object : ObjectId} {r : Registry} {s : RegistryState}
  {owner : SourceIncarnationKey}

theorem RetiredBy.reports (h : RetiredBy r.state object owner f) : r.ReportsRetired object := by
  refine ⟨h.lifecycle, ?_⟩
  intro options view hview
  obtain ⟨a, d, hlifecycle⟩ := lifecycle_queryObject hview
  rw [hlifecycle]
  exact h.lifecycle a d

/-! ### What a record can add -/

section Accepted

variable {limits : Limits} {historyPerKey : UInt32} {s s' : RegistryState} {e : Evidence}
  {m : Attestation} {object : ObjectId}

/-- A record that is no reincarnation leaves the reincarnations. -/
theorem Accepts.reincarnationRecords (h : Accepts limits historyPerKey s e m s') (hw : WellKeyed s)
    (hkind : e.payload.isReincarnation = false) :
    s'.reincarnationRecords = s.reincarnationRecords := by
  refine (h.wellKeyed hw).reincarnationRecords.ext hw.reincarnationRecords fun k i =>
    eq_of_lookup (fun _ _ he => ClaimValue.reincarnation.inj he)
      (h.lookup_of_not_claimed (k := .reincarnation k i) fun u hu hk => ?_)
  cases u with
  | reincarnation object value =>
    obtain ⟨p, hp, -, -⟩ := of_reincarnation_mem hu
    rw [hp] at hkind
    exact absurd hkind (by simp [EvidencePayload.isReincarnation])
  | _ => exact absurd hk (by simp [ClaimUpdate.key])

theorem stored_of_lifecycleRecord (h : OrdMap.find₂ s.lifecycleRecords object owner = some f) :
    s.stored (.lifecycle object owner) = some (f.metadata, .lifecycle f.value) := by
  simp [RegistryState.stored, RegistryState.lookup, h, Folded.mapValue]

theorem lifecycleRecord_of_stored {v : LifecycleValue}
    (h : s.stored (.lifecycle object owner) = some (m, .lifecycle v)) :
    ∃ f, OrdMap.find₂ s.lifecycleRecords object owner = some f ∧ f.metadata = m ∧ f.value = v := by
  obtain ⟨g, hg, heq⟩ := Option.map_eq_some_iff.mp h
  obtain ⟨f, hf, rfl⟩ := Option.map_eq_some_iff.mp hg
  obtain ⟨hm, hv⟩ := Prod.mk.inj heq
  exact ⟨f, hf, hm, ClaimValue.lifecycle.inj hv⟩

/-- **The words after a record that is no reincarnation**: those from before, and at most one
more, which is an assertion of the record itself. -/
theorem Accepts.word_cases (h : Accepts limits historyPerKey s e m s') (hw : WellKeyed s)
    (hkind : e.payload.isReincarnation = false) {word : LifecycleCandidate}
    (hword : LifecycleWord s' object word) :
    LifecycleWord s object word ∨ (word.fromReincarnation = false ∧ word.metadata = m) := by
  have hrecords := h.reincarnationRecords hw hkind
  have hfence := sessionIsFenced_congr h.sources
  have hcurrent : objectIncarnationOf s' object = objectIncarnationOf s object := by
    unfold objectIncarnationOf
    simp only [hrecords, hfence]
  cases hword with
  | @asserted owner f stored unfenced current =>
    rw [hfence] at unfenced
    rw [hcurrent] at current
    rcases stored_cases h (.lifecycle object owner) with heq | ⟨u, -, -, -, heq⟩
    · rw [stored_of_lifecycleRecord stored] at heq
      obtain ⟨f₀, hf₀, hm₀, hv₀⟩ := lifecycleRecord_of_stored heq.symm
      rw [← hv₀] at current
      rw [← hv₀, ← hm₀]
      exact .inl (.asserted hf₀ unfenced current)
    · rw [stored_of_lifecycleRecord stored] at heq
      exact .inr ⟨rfl, (Prod.mk.inj (Option.some.inj heq)).1⟩
  | replaced stored unfenced reached =>
    rw [hrecords] at stored
    rw [hfence] at unfenced
    rw [hcurrent] at reached
    exact .inl (.replaced stored unfenced reached)

end Accepted

/-! ### Records that cannot bring it back -/

/-- A record of another source than the owner's, of no higher authority than the given one and
not a reincarnation. -/
structure Outranked (s : RegistryState) (owner : SourceIncarnationKey) (authority : Authority)
    (e : Evidence) : Prop where
  other : e.header.source ≠ owner.source
  kind : e.payload.isReincarnation = false
  lower : ∀ source : SourceRecord, s.sources[e.header.source]? = some source →
    source.descriptor.authority ≤ authority

/-- **Such a record leaves the object retired by the same word.** -/
theorem RetiredBy.accepts {limits : Limits} {historyPerKey : UInt32} {s' : RegistryState}
    {e : Evidence} {m : Attestation} (hf : RetiredBy s object owner f) (hw : WellKeyed s)
    (h : Accepts limits historyPerKey s e m s') (hout : Outranked s owner f.metadata.authority e) :
    RetiredBy s' object owner f := by
  have hrecords := h.reincarnationRecords hw hout.kind
  have hfence := sessionIsFenced_congr h.sources
  have hne : owner ≠ e.key := fun heq => hout.other (congrArg SourceIncarnationKey.source heq).symm
  have hauthority : m.authority ≤ f.metadata.authority := by
    obtain ⟨source, t, hsource, -, rfl⟩ := h.source
    exact hout.lower source hsource
  refine ⟨?_, (hfence owner).trans hf.unfenced, hf.retired, ?_, ?_, ?_⟩
  · rw [← hf.stored]
    refine eq_of_lookup (fun _ _ he => ClaimValue.lifecycle.inj he)
      (h.lookup_of_not_claimed (k := .lifecycle object owner) fun u hu hk => hne ?_)
    rw [← owner_key_of_mem_claimsOf hu, hk]
    rfl
  · rw [hf.current]
    unfold objectIncarnationOf
    simp only [hrecords, hfence]
  · intro word hword
    rcases h.word_cases hw hout.kind hword with hold | ⟨-, hmeta⟩
    · exact hf.top word hold
    · rw [hmeta]
      exact hauthority
  · intro word hword hfrom
    rcases h.word_cases hw hout.kind hword with hold | ⟨hasserted, -⟩
    · exact hf.unanswered word hold hfrom
    · exact absurd (hasserted.symm.trans hfrom) (by simp)

/-- A call that ingests such a record. -/
def Concedes (s : RegistryState) (owner : SourceIncarnationKey) (authority : Authority) :
    Request → Prop
  | .ingest e _ _ => Outranked s owner authority e
  | _ => False

namespace Registry

/-- One such call. -/
theorem retiredBy_ingest (hw : WellKeyed r.state) (hi : r.Indexed)
    (hf : RetiredBy r.state object owner f) {e : Evidence}
    (hout : Outranked r.state owner f.metadata.authority e) (t : Timestamp) (io : Store.AppendIo) :
    RetiredBy (r.ingest e t io).1.state object owner f ∧
      (r.ingest e t io).1.state.sources = r.state.sources := by
  rcases accepts_or_counted hi e t io with ⟨-, m, ha⟩ | ⟨-, hstate | ⟨-, session, hstate⟩⟩
  · exact ⟨hf.accepts hw ha hout, ha.sources⟩
  · rw [hstate]
    exact ⟨hf, rfl⟩
  · rw [hstate]
    obtain ⟨hstored, hunfenced, hretired, hcurrent, htop, hunanswered⟩ := hf
    have hsame : ∀ word, LifecycleWord
        { r.state with sessions := r.state.sessions.insert e.key session } object word →
        LifecycleWord r.state object word := by
      intro word hword
      cases hword with
      | asserted stored unfenced current => exact .asserted stored unfenced current
      | replaced stored unfenced reached => exact .replaced stored unfenced reached
    exact ⟨⟨hstored, hunfenced, hretired, hcurrent, fun word hword => htop word (hsame word hword),
      fun word hword => hunanswered word (hsame word hword)⟩, rfl⟩

/-- Any number of such calls. -/
theorem retiredBy_run {r r' : Registry} {object : ObjectId} {owner : SourceIncarnationKey}
    {f : Folded LifecycleValue} {rest : List Request} (hw : WellKeyed r.state) (hi : r.Indexed)
    (hf : RetiredBy r.state object owner f)
    (hrest : ∀ q ∈ rest, Concedes r.state owner f.metadata.authority q) (hrun : r.run rest = .ok r') :
    RetiredBy r'.state object owner f := by
  induction rest generalizing r with
  | nil =>
    obtain rfl : r = r' := Except.ok.inj hrun
    exact hf
  | cons q rest ih =>
    have hq := hrest q List.mem_cons_self
    cases q with
    | ingest e t io =>
      obtain ⟨hf', hsources⟩ := retiredBy_ingest hw hi hf hq t io
      refine ih ((r.ingestLocked_frame e t true true io).2.2 hw)
        (indexed_ingestLocked hi e t true true io) hf' ?_ hrun
      intro q' hq'
      have hconcedes := hrest q' (List.mem_cons_of_mem _ hq')
      cases q' with
      | ingest e' t' io' =>
        obtain ⟨hother, hkind, hlower⟩ := hconcedes
        refine ⟨hother, hkind, fun source hsource => hlower source ?_⟩
        rw [← hsources]
        exact hsource
      | _ => exact hconcedes
    | _ => exact hq.elim

/-- **Retirement is sticky.**  In every state a run reaches, an object that a session retires at
the highest authority, with no reincarnation of that authority to answer it, is retired, and it
stays retired along any calls that ingest records of other sources of no higher authority, so
long as none is a reincarnation. -/
theorem retirement_sticky {r : Registry} {options : RegistryOptions} {requests : List Request}
    {es : List Evidence} (h : r.ReachedBy options requests es) {object : ObjectId}
    {owner : SourceIncarnationKey} {f : Folded LifecycleValue}
    (hf : RetiredBy r.state object owner f) :
    r.ReportsRetired object ∧ ∀ rest : List Request,
      (∀ q ∈ rest, Concedes r.state owner f.metadata.authority q) →
        ∀ r', r.run rest = .ok r' → r'.ReportsRetired object := by
  obtain ⟨hw, hi, -, -, -⟩ := h.trace
  refine ⟨hf.reports, ?_⟩
  intro rest hrest r' hrun
  exact (retiredBy_run hw hi hf hrest hrun).reports

/-- What can be computed of a state in which a session retires an object. -/
def retires (s : RegistryState) (object : ObjectId) (owner : SourceIncarnationKey)
    (f : Folded LifecycleValue) : Bool :=
  !sessionIsFenced s owner && f.value.action == .retired &&
    f.value.objectIncarnation == objectIncarnationOf s object &&
    (lifecycleCandidates s object).all fun word =>
      decide (word.metadata.authority ≤ f.metadata.authority) &&
        !(word.fromReincarnation && word.metadata.authority == f.metadata.authority)

theorem retiredBy_of_retires (hf : OrdMap.find₂ s.lifecycleRecords object owner = some f)
    (h : retires s object owner f = true) : RetiredBy s object owner f := by
  unfold retires at h
  simp only [Bool.and_eq_true, Bool.not_eq_true', beq_iff_eq, List.all_eq_true, decide_eq_true_eq,
    Bool.and_eq_false_iff, beq_eq_false_iff_ne] at h
  obtain ⟨⟨⟨hunfenced, hretired⟩, hcurrent⟩, hwords⟩ := h
  refine ⟨hf, hunfenced, hretired, hcurrent, ?_, ?_⟩
  · intro word hword
    exact (hwords word (mem_lifecycleCandidates.mpr hword)).1
  · intro word hword hfrom
    refine (hwords word (mem_lifecycleCandidates.mpr hword)).2.resolve_left ?_
    rw [hfrom]
    simp

theorem run_ingest (r : Registry) (e : Evidence) (t : Timestamp) (io : Store.AppendIo) :
    r.run [.ingest e t io] = .ok (r.ingest e t io).1 := rfl

/-- The second source of `sampleWords` takes back what it said, and says that the object is
present. -/
def sampleComeback : Evidence :=
  sampleRecord 2 1 2
    (.setLifecycle { object := .fromParts 0 9, objectIncarnation := 1, action := .present })

/-- The first source retires the object, and the second one has no higher authority. -/
def sampleRetired (r : Registry) : Bool :=
  (OrdMap.find₂ r.state.lifecycleRecords (.fromParts 0 9) ⟨.fromParts 0 1, 1⟩).any fun f =>
    retires r.state (.fromParts 0 9) ⟨.fromParts 0 1, 1⟩ f &&
      (r.state.sources[sampleComeback.header.source]?).all fun source =>
        decide (source.descriptor.authority ≤ f.metadata.authority)

theorem retirement_sticky_sample :
    ∃ (r : Registry) (es : List Evidence), r.ReachedBy {} (sampleWords .retired .quarantined) es ∧
      r.ReportsRetired (.fromParts 0 9) ∧
      (r.ingest sampleComeback 3 .written).1.ReportsRetired (.fromParts 0 9) := by
  obtain ⟨r, es, hr, hp⟩ := exists_reached {} (sampleWords .retired .quarantined)
    (fun r _ => sampleRetired r) (by decide +kernel)
  unfold sampleRetired at hp
  cases hf : OrdMap.find₂ r.state.lifecycleRecords (.fromParts 0 9) ⟨.fromParts 0 1, 1⟩ with
  | none =>
    rw [hf] at hp
    exact absurd hp (by simp)
  | some f =>
    rw [hf, Option.any_some, Bool.and_eq_true] at hp
    obtain ⟨hretired, hall⟩ := retirement_sticky hr (retiredBy_of_retires hf hp.1)
    refine ⟨r, es, hr, hretired, hall _ ?_ _ (r.run_ingest sampleComeback 3 .written)⟩
    intro q hq
    obtain rfl := List.mem_singleton.mp hq
    refine ⟨by decide, rfl, ?_⟩
    intro source hsource
    have hlower := hp.2
    rw [hsource, Option.all_some, decide_eq_true_eq] at hlower
    exact hlower

end Registry

end CableRegistry
