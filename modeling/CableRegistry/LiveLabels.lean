import CableRegistry.Catalogue
import CableRegistry.Lifecycle
import CableRegistry.Queries
import CableRegistry.Verdicts

/-!
# Labels of live objects

A registration is refused when another object that is not retired carries its label.  The
check is made when a registration is written and at no other time, so a label stays with one
live object as long as nothing brings a retired object back: no record about the lifecycle of
a retired object whose label went to another one, and no session that fences the words which
retired it (`keepsLabels`).

* `live_labels_unique`: in a run under that condition, no two objects that are not retired
  carry the same label.
* `retired_label_returns`: without it they may.  The source that retired an object says that
  it is present, after its label was given to another object.
-/

open Std (ExtTreeMap)

namespace CableRegistry

/-! ### Who carries a label -/

/-- Some registration of the object has the label. -/
def carriesLabel (s : RegistryState) (object : ObjectId) (label : Text) : Bool :=
  (recordsOf s.objectRegistrations object).any (·.2.value.physicalLabel == label)

/-- The object's lifecycle is retired. -/
def isRetired (s : RegistryState) (object : ObjectId) : Bool :=
  (lifecycleActionOf s object).action == .retired

/-- The two objects carry a label in common. -/
def sharesLabel (s : RegistryState) (a b : ObjectId) : Bool :=
  a != b && (recordsOf s.objectRegistrations a).any fun entry =>
    !entry.2.value.physicalLabel.isEmpty && carriesLabel s b entry.2.value.physicalLabel

/-- A word on the object's lifecycle stands that a session of the source would fence. -/
def restsOnEarlier (s : RegistryState) (source : SourceId) (incarnation : Incarnation)
    (object : ObjectId) : Bool :=
  let earlier : SourceIncarnationKey → Bool := fun owner =>
    owner.source == source && owner.incarnation < incarnation && !sessionIsFenced s owner
  (recordsOf s.lifecycleRecords object).any (earlier ·.1) ||
    (recordsOf s.reincarnationRecords object).any (earlier ·.1)

/-- A word on the object's lifecycle brings no label back. -/
def mayReturn (s : RegistryState) (object : ObjectId) : Bool :=
  !isRetired s object || s.objectRegistrations.keys.all fun other =>
    !sharesLabel s object other || isRetired s other

/-- The request brings no label back that another live object carries. -/
def keepsLabels (s : RegistryState) : Request → Bool
  | .ingest e _ _ =>
    match e.payload.lifecycleObject with
    | some object => mayReturn s object
    | none => true
  | .openSession d i _ _ _ => s.objectRegistrations.keys.all fun a =>
      s.objectRegistrations.keys.all fun b => !sharesLabel s a b ||
        isRetired s a && !restsOnEarlier s d.id i a || isRetired s b && !restsOnEarlier s d.id i b
  | _ => true

section Carries

variable {s s' : RegistryState} {a b object : ObjectId} {label : Text}

theorem carriesLabel_iff :
    carriesLabel s object label = true ↔ ∃ owner f,
      OrdMap.find₂ s.objectRegistrations object owner = some f ∧ f.value.physicalLabel = label := by
  unfold carriesLabel
  rw [List.any_eq_true]
  simp only [mem_recordsOf, beq_iff_eq]
  constructor
  · rintro ⟨entry, h⟩
    exact ⟨entry.1, entry.2, h⟩
  · rintro ⟨owner, f, h⟩
    exact ⟨(owner, f), h⟩

theorem carriesLabel_iff_winner :
    carriesLabel s object label = true ↔ ∃ owner m v,
      s.winner (.objectRegistration object owner) = some (m, .objectRegistration v) ∧
        v.physicalLabel = label := by
  rw [carriesLabel_iff]
  refine exists_congr fun owner => ?_
  rw [show s.winner (.objectRegistration object owner) =
    ((OrdMap.find₂ s.objectRegistrations object owner).map
      (Folded.mapValue ClaimValue.objectRegistration)).map
      fun f : Folded ClaimValue => (f.metadata.blur coreBlur, f.value) from rfl]
  generalize OrdMap.find₂ s.objectRegistrations object owner = stored
  cases stored with
  | none => simp
  | some f => simp [Folded.mapValue]

theorem mem_keys_of_carriesLabel (h : carriesLabel s object label = true) :
    object ∈ s.objectRegistrations.keys := by
  obtain ⟨owner, f, hf, -⟩ := carriesLabel_iff.mp h
  rw [ExtTreeMap.mem_keys, ExtTreeMap.mem_iff_isSome_getElem?]
  unfold OrdMap.find₂ at hf
  obtain ⟨owners, howners, -⟩ := Option.bind_eq_some_iff.mp hf
  rw [howners]
  rfl

theorem sharesLabel_of_carries (hab : a ≠ b) (hne : label ≠ [])
    (ha : carriesLabel s a label = true) (hb : carriesLabel s b label = true) :
    sharesLabel s a b = true := by
  obtain ⟨owner, f, hf, rfl⟩ := carriesLabel_iff.mp ha
  unfold sharesLabel
  rw [Bool.and_eq_true, List.any_eq_true]
  refine ⟨bne_iff_ne.mpr hab, (owner, f), mem_recordsOf.mpr hf, ?_⟩
  rw [hb, Bool.and_true, Bool.not_eq_true', List.isEmpty_eq_false_iff]
  exact hne

/-- What the check of a registration says of the other objects. -/
theorem retired_of_not_holdsLiveLabel (hne : object ≠ a)
    (h : holdsLiveLabel s label a object = false) (hcarries : carriesLabel s object label = true) :
    isRetired s object = true := by
  unfold holdsLiveLabel at h
  unfold carriesLabel recordsOf at hcarries
  unfold isRetired
  cases hr : s.objectRegistrations[object]? with
  | none =>
    rw [hr] at hcarries
    exact absurd hcarries (by simp)
  | some owners =>
    rw [hr] at h hcarries
    dsimp only at h hcarries
    rw [bne_iff_ne.mpr hne, hcarries, Bool.true_and, Bool.true_and] at h
    exact beq_iff_eq.mpr (by simpa using h)

end Carries

/-! ### Steps -/

/-- No two objects carry a label unless one of them is retired. -/
def LabelsApart (s : RegistryState) : Prop :=
  ∀ a b label, a ≠ b → label ≠ [] → carriesLabel s a label = true → carriesLabel s b label = true →
    isRetired s a = true ∨ isRetired s b = true

variable {object : ObjectId} {d : SourceDescriptor}

section Steps

variable {limits : Limits} {historyPerKey : UInt32} {s s' : RegistryState} {e : Evidence}
  {m : Attestation} {a b object : ObjectId}

theorem LabelsApart.empty (id : RegistryId) (openedAt : Timestamp) :
    LabelsApart { id := id, openedAt := openedAt } := by
  intro a b label _ _ ha
  obtain ⟨owner, f, hf, -⟩ := carriesLabel_iff.mp ha
  simp [OrdMap.find₂] at hf

theorem SameWords.isRetired (h : SameWords s s' object) : isRetired s' object = isRetired s object := by
  unfold CableRegistry.isRetired
  rw [h.verdict.2.1]

/-- No new carrier, and the retired objects stay retired. -/
theorem LabelsApart.of_same (h : LabelsApart s)
    (hcarries : ∀ a label, carriesLabel s' a label = true → carriesLabel s a label = true)
    (hwords : ∀ a, SameWords s s' a) : LabelsApart s' := by
  intro a b label hab hne ha hb
  rw [(hwords a).isRetired, (hwords b).isRetired]
  exact h a b label hab hne (hcarries a label ha) (hcarries b label hb)

theorem carriesLabel_of_winner (hwinner : ∀ k, s'.winner k = s.winner k) (a : ObjectId) (label : Text) :
    carriesLabel s' a label = carriesLabel s a label := by
  rw [Bool.eq_iff_iff, carriesLabel_iff_winner, carriesLabel_iff_winner]
  simp only [hwinner]

theorem LabelsApart.of_sameWinners (h : LabelsApart s) (hsame : SameWinners s s') : LabelsApart s' :=
  h.of_same (fun a label => by rw [carriesLabel_of_winner hsame.winner a label]; exact id)
    (SameWords.of_sameWinners hsame)

/-- A record that registers no object makes none a carrier. -/
theorem Accepts.carriesLabel (h : Accepts limits historyPerKey s e m s')
    (hkind : ∀ p, e.payload ≠ .registerObject p) (object : ObjectId) (label : Text) :
    carriesLabel s' object label = carriesLabel s object label := by
  have hnew : ∀ owner, s'.winner (.objectRegistration object owner) =
      s.winner (.objectRegistration object owner) := by
    intro owner
    unfold RegistryState.winner
    rw [h.lookup_of_not_claimed]
    intro u hu hk
    cases hp : e.payload with
    | registerObject p => exact hkind p hp
    | attach p =>
      rw [hp] at hu
      rcases position_of_mem rfl hu with ⟨subject, v, rfl⟩ | ⟨key, v, rfl⟩ <;>
        simp [ClaimUpdate.key] at hk
    | detach p =>
      rw [hp] at hu
      rcases position_of_mem rfl hu with ⟨subject, v, rfl⟩ | ⟨key, v, rfl⟩ <;>
        simp [ClaimUpdate.key] at hk
    | move p =>
      rw [hp] at hu
      rcases position_of_mem rfl hu with ⟨subject, v, rfl⟩ | ⟨key, v, rfl⟩ <;>
        simp [ClaimUpdate.key] at hk
    | _ =>
      rw [hp] at hu
      obtain rfl := List.mem_singleton.mp hu
      simp [ClaimUpdate.key] at hk
  rw [Bool.eq_iff_iff, carriesLabel_iff_winner, carriesLabel_iff_winner]
  simp only [hnew]

/-- **A registration that is accepted takes no label of a live object.** -/
theorem LabelsApart.register (h : LabelsApart s) (ha : Accepts limits historyPerKey s e m s')
    {p : RegisterObjectPayload} (hp : e.payload = .registerObject p) : LabelsApart s' := by
  have hwords : ∀ a, SameWords s s' a := fun a => ha.sameWords (by
    rw [hp]
    simp [EvidencePayload.lifecycleObject])
  -- A carrier is an old one, or the object that is registered now, whose label was checked.
  have hcases : ∀ a label, carriesLabel s' a label = true → carriesLabel s a label = true ∨
      a = p.descriptor.id ∧ label = p.descriptor.physicalLabel ∧
        HasRoom limits s (.objectRegistration p.descriptor.id p.descriptor) := by
    intro a label hcarries
    obtain ⟨owner, m', v, hw, rfl⟩ := carriesLabel_iff_winner.mp hcarries
    rcases winner_cases ha (.objectRegistration a owner) with heq | ⟨u, hu, hk, ho, heq⟩
    · rw [heq] at hw
      exact .inl (carriesLabel_iff_winner.mpr ⟨owner, m', v, hw, rfl⟩)
    · have hclaims : claimsOf e.key e.payload =
          [.objectRegistration p.descriptor.id p.descriptor] := by rw [hp]; rfl
      have hmem := hu
      rw [hclaims] at hu
      obtain rfl := List.mem_singleton.mp hu
      obtain ⟨rfl, -⟩ := ClaimKey.objectRegistration.inj hk
      rw [hw] at heq
      obtain ⟨-, hv⟩ := Prod.mk.inj (Option.some.inj heq)
      obtain rfl := ClaimValue.objectRegistration.inj hv
      obtain ⟨index, hindex, hdecided⟩ := ha.decided
      rw [isAccepted_decideEvidence_iff hindex, ha.owner] at hdecided
      have hinsert : claimOutcome s m (.objectRegistration p.descriptor.id p.descriptor) = .insert := by
        unfold resolvedOutcome at ho
        split at ho
        · exact absurd ho (by simp)
        · exact ho
      exact .inr ⟨rfl, rfl, (hdecided _ hmem).2 hinsert⟩
  intro a b label hab hne hca hcb
  rw [(hwords a).isRetired, (hwords b).isRetired]
  rcases hcases a label hca with holda | ⟨rfl, rfl, hroom⟩
  · rcases hcases b label hcb with holdb | ⟨rfl, rfl, hroom⟩
    · exact h a b label hab hne holda holdb
    · exact .inl (retired_of_not_holdsLiveLabel hab (hroom.1 hne a) holda)
  · rcases hcases b _ hcb with holdb | ⟨rfl, -, -⟩
    · exact .inr (retired_of_not_holdsLiveLabel (Ne.symm hab) (hroom.1 hne b) holdb)
    · exact absurd rfl hab

theorem retired_of_mayReturn (h : mayReturn s a = true) (hretired : isRetired s a = true)
    (hshares : sharesLabel s a b = true) (hb : b ∈ s.objectRegistrations.keys) :
    isRetired s b = true := by
  unfold mayReturn at h
  rw [hretired, Bool.not_true, Bool.false_or, List.all_eq_true] at h
  have hother := h b hb
  rw [hshares] at hother
  simpa using hother

/-- **A word on an object that may return.** -/
theorem LabelsApart.word (h : LabelsApart s) (ha : Accepts limits historyPerKey s e m s')
    (hobject : e.payload.lifecycleObject = some object) (hmay : mayReturn s object = true) :
    LabelsApart s' := by
  have hkind : ∀ p, e.payload ≠ .registerObject p := by
    intro p hp
    rw [hp] at hobject
    exact absurd hobject (by simp [EvidencePayload.lifecycleObject])
  have hother : ∀ x, x ≠ object → isRetired s' x = isRetired s x := by
    intro x hx
    refine (ha.sameWords ?_).isRetired
    rw [hobject]
    exact fun heq => hx (Option.some.inj heq).symm
  -- The other carriers of the object's label are retired, before and after.
  have hrest : ∀ x label, x ≠ object → label ≠ [] → carriesLabel s object label = true →
      carriesLabel s x label = true → isRetired s' x = true := by
    intro x label hx hne hco hcx
    rw [hother x hx]
    rcases h object x label (Ne.symm hx) hne hco hcx with hretired | hretired
    · exact retired_of_mayReturn hmay hretired (sharesLabel_of_carries (Ne.symm hx) hne hco hcx)
        (mem_keys_of_carriesLabel hcx)
    · exact hretired
  intro a b label hab hne hca hcb
  rw [ha.carriesLabel hkind] at hca hcb
  by_cases hao : a = object
  · subst hao
    exact .inr (hrest b label (Ne.symm hab) hne hca hcb)
  by_cases hbo : b = object
  · subst hbo
    exact .inl (hrest a label hao hne hcb hca)
  rw [hother a hao, hother b hbo]
  exact h a b label hab hne hca hcb

theorem standing_of_not_rests {i : Incarnation} (t : Timestamp)
    (h : restsOnEarlier s d.id i object = false) :
    SameWords s (Registry.openState s d i t) object := by
  unfold restsOnEarlier at h
  simp only [Bool.or_eq_false_iff, List.any_eq_false, mem_recordsOf] at h
  refine sameWords_openState t fun owner hsource hlt => ⟨?_, ?_⟩
  · rw [Option.eq_none_iff_forall_ne_some]
    intro w hw
    obtain ⟨hwinner, hfenced⟩ := standing_eq_some.mp hw
    obtain ⟨g, hg, -⟩ := Option.map_eq_some_iff.mp hwinner
    obtain ⟨f, hf, -⟩ := Option.map_eq_some_iff.mp hg
    have hfenced' : sessionIsFenced s owner = false := hfenced
    exact h.1 (owner, f) hf (by simp [hsource, hlt, hfenced'])
  · rw [Option.eq_none_iff_forall_ne_some]
    intro w hw
    obtain ⟨hwinner, hfenced⟩ := standing_eq_some.mp hw
    obtain ⟨g, hg, -⟩ := Option.map_eq_some_iff.mp hwinner
    obtain ⟨f, hf, -⟩ := Option.map_eq_some_iff.mp hg
    have hfenced' : sessionIsFenced s owner = false := hfenced
    exact h.2 (owner, f) hf (by simp [hsource, hlt, hfenced'])

/-- **A session that leaves one carrier of each label retired.** -/
theorem LabelsApart.openState {i : Incarnation} {t t' : Timestamp} {io : Store.AppendIo}
    (hc : keepsLabels s (.openSession d i t t' io) = true) :
    LabelsApart (Registry.openState s d i t') := by
  intro a b label hab hne hca hcb
  have hwinner : ∀ k, (Registry.openState s d i t').winner k = s.winner k := by
    intro k
    unfold RegistryState.winner
    rw [Registry.openState_lookup]
  rw [carriesLabel_of_winner hwinner] at hca hcb
  unfold keepsLabels at hc
  simp only [List.all_eq_true] at hc
  have hpair := hc a (mem_keys_of_carriesLabel hca) b (mem_keys_of_carriesLabel hcb)
  rw [sharesLabel_of_carries hab hne hca hcb, Bool.not_true, Bool.false_or, Bool.or_eq_true,
    Bool.and_eq_true, Bool.and_eq_true, Bool.not_eq_true', Bool.not_eq_true'] at hpair
  rcases hpair with ⟨hretired, hrests⟩ | ⟨hretired, hrests⟩
  · exact .inl (by rw [(standing_of_not_rests t' hrests).isRetired, hretired])
  · exact .inr (by rw [(standing_of_not_rests t' hrests).isRetired, hretired])

/-- **What one request keeps.** -/
theorem LabelsApart.effect (h : LabelsApart s) {q : Request} {es : List Evidence}
    (hc : keepsLabels s q = true) (heffect : Effect limits historyPerKey s q es s') :
    LabelsApart s' := by
  cases heffect with
  | nothing => exact h
  | opened d i t t' io hadm => exact LabelsApart.openState hc
  | touched q key session hkey =>
    refine h.of_sameWinners ⟨fun k => ?_, rfl, fun k => ?_⟩
    · unfold RegistryState.winner
      rw [lookup_sessions]
    · exact contains_insert_of_contains hkey session k
  | restarted env s₀ hcore =>
    exact h.of_sameWinners (SameWinners.of_core (by rw [core_clearVolatile, hcore]))
  | accepted t io ha =>
    rename_i e m
    cases hobject : e.payload.lifecycleObject with
    | some object =>
      have hmay : mayReturn s object = true := by
        unfold keepsLabels at hc
        dsimp only at hc
        rw [hobject] at hc
        exact hc
      exact h.word ha hobject hmay
    | none =>
      cases hp : e.payload with
      | registerObject p => exact h.register ha hp
      | _ =>
        refine h.of_same (fun a label => ?_) fun a => ha.sameWords (by rw [hobject]; simp)
        rw [ha.carriesLabel (by rw [hp]; simp)]
        exact id

end Steps

/-! ### Runs -/

/-- The lifecycle a query reports of a retired object. -/
theorem lifecycle_of_isRetired {r : Registry} {options : QueryOptions} {view : ObjectView}
    (h : r.queryObject object options = .ok view) (hretired : isRetired r.state object = true) :
    view.lifecycle = .retired := by
  have haction : (lifecycleActionOf r.state object).action = .retired := beq_iff_eq.mp hretired
  have hverdict := lifecycleActionOf_eq r.state object
  have hconflicting : (lifecycleActionOf r.state object).conflicting = false := by
    cases hc : (lifecycleActionOf r.state object).conflicting with
    | false => rfl
    | true =>
      rw [hc, resolveActions_eq] at hverdict
      have hpresent := resolveFlags_present (congrArg Prod.snd hverdict.symm)
      rw [← hverdict, haction] at hpresent
      exact absurd hpresent (by decide)
  rw [Registry.queryObject_cases] at h
  split at h
  · exact absurd h (by simp)
  split at h
  · exact absurd h (by simp)
  rename_i hmissing
  obtain rfl := Except.ok.inj h
  have hexists : objectExists r.state object = true := by simpa using hmissing
  obtain ⟨registration, hregistration⟩ := exists_winningRegistration hexists
  unfold deriveObjectView
  rw [hregistration]
  simp only [deriveLifecycle, hconflicting, haction]
  rfl

/-- **Labels of live objects are unique.**  In every state of a run whose requests bring no
label back, two different objects whose lifecycle is not retired have no label in common, in
any of their registrations. -/
theorem live_labels_unique {r : Registry} {options : RegistryOptions} {requests : List Request}
    {es : List Evidence} (h : r.ReachedUnder keepsLabels options requests es) {a b : ObjectId}
    (hab : a ≠ b) {oa ob : QueryOptions} {va vb : ObjectView} (ha : r.queryObject a oa = .ok va)
    (hb : r.queryObject b ob = .ok vb) (hlive : va.lifecycle ≠ .retired)
    (hlive' : vb.lifecycle ≠ .retired) {label : Text} (hne : label ≠ []) :
    ¬ (carriesLabel r.state a label = true ∧ carriesLabel r.state b label = true) := by
  have hapart : LabelsApart r.state :=
    h.induction (motive := fun _ s => LabelsApart s) LabelsApart.empty
      (fun _ _ hc hm heffect => hm.effect hc heffect)
  rintro ⟨hca, hcb⟩
  rcases hapart a b label hab hne hca hcb with hretired | hretired
  · exact hlive (lifecycle_of_isRetired ha hretired)
  · exact hlive' (lifecycle_of_isRetired hb hretired)

/-- Object `n` with the label "L". -/
def sampleLabelled (n : UInt64) : EvidencePayload :=
  .registerObject { descriptor := { id := .fromParts 0 n, physicalLabel := [76], sides := [{}] } }

def sampleAction (n : UInt64) (action : LifecycleAction) : EvidencePayload :=
  .setLifecycle { object := .fromParts 0 n, objectIncarnation := 1, action := action }

/-- Object 8 is retired, and its label goes to object 9. -/
def sampleReuse : List Request :=
  [Registry.sampleOpen 1 1 5, Registry.sampleIngest 1 1 1 (sampleLabelled 8),
    Registry.sampleIngest 1 1 2 (sampleAction 8 .retired),
    Registry.sampleIngest 1 1 3 (sampleLabelled 9), Registry.sampleIngest 1 1 4 (Registry.sampleObject 10)]

/-- The object is registered and its lifecycle is the given one. -/
def reports (r : Registry) (object : ObjectId) (lifecycle : LifecycleState) : Bool :=
  (r.queryObject object {}).toOption.any (·.lifecycle == lifecycle)

theorem exists_view_of_reports {r : Registry} {lifecycle : LifecycleState}
    (h : reports r object lifecycle = true) :
    ∃ view, r.queryObject object {} = .ok view ∧ view.lifecycle = lifecycle := by
  unfold reports at h
  cases hq : r.queryObject object {} with
  | error error =>
    rw [hq] at h
    exact absurd h (by simp [Except.toOption])
  | ok view =>
    rw [hq] at h
    exact ⟨view, rfl, by simpa [Except.toOption] using h⟩

theorem live_labels_unique_sample :
    ∃ (r : Registry) (es : List Evidence) (va vb : ObjectView),
      r.ReachedUnder keepsLabels {} sampleReuse es ∧
        r.queryObject (.fromParts 0 9) {} = .ok va ∧ va.lifecycle ≠ .retired ∧
        r.queryObject (.fromParts 0 10) {} = .ok vb ∧ vb.lifecycle ≠ .retired ∧
        ¬ (carriesLabel r.state (.fromParts 0 9) [76] = true ∧
          carriesLabel r.state (.fromParts 0 10) [76] = true) := by
  obtain ⟨r, es, hr, hp⟩ := Registry.exists_reachedUnder keepsLabels {} sampleReuse
    (fun r => reports r (.fromParts 0 9) .registered && reports r (.fromParts 0 10) .registered)
    (by decide +kernel)
  rw [Bool.and_eq_true] at hp
  obtain ⟨va, hva, hla⟩ := exists_view_of_reports hp.1
  obtain ⟨vb, hvb, hlb⟩ := exists_view_of_reports hp.2
  have hlive : va.lifecycle ≠ .retired := by rw [hla]; decide
  have hlive' : vb.lifecycle ≠ .retired := by rw [hlb]; decide
  exact ⟨r, es, va, vb, hr, hva, hlive, hvb, hlive',
    live_labels_unique hr (by decide) hva hvb hlive hlive' (by decide)⟩

/-- **A retired object comes back with a label that was reused.**  Object 8 is retired, object
9 is registered with its label, and object 8 is said to be present: both are live and carry
the label. -/
theorem retired_label_returns :
    ∃ (r : Registry) (es : List Evidence) (va vb : ObjectView),
      r.ReachedBy {} (sampleReuse ++ [Registry.sampleIngest 1 1 5 (sampleAction 8 .present)]) es ∧
        r.queryObject (.fromParts 0 8) {} = .ok va ∧ va.lifecycle = .registered ∧
        r.queryObject (.fromParts 0 9) {} = .ok vb ∧ vb.lifecycle = .registered ∧
        carriesLabel r.state (.fromParts 0 8) [76] = true ∧
        carriesLabel r.state (.fromParts 0 9) [76] = true := by
  obtain ⟨r, es, hr, hp⟩ := Registry.exists_reached {} (sampleReuse ++ [Registry.sampleIngest 1 1 5 (sampleAction 8 .present)])
    (fun r _ => (reports r (.fromParts 0 8) .registered && reports r (.fromParts 0 9) .registered) &&
      (carriesLabel r.state (.fromParts 0 8) [76] && carriesLabel r.state (.fromParts 0 9) [76]))
    (by decide +kernel)
  rw [Bool.and_eq_true, Bool.and_eq_true, Bool.and_eq_true] at hp
  obtain ⟨⟨hra, hrb⟩, hca, hcb⟩ := hp
  obtain ⟨va, hva, hla⟩ := exists_view_of_reports hra
  obtain ⟨vb, hvb, hlb⟩ := exists_view_of_reports hrb
  exact ⟨r, es, va, vb, hr, hva, hla, hvb, hlb, hca, hcb⟩

end CableRegistry
