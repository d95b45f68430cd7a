import CableRegistry.Core
import CableRegistry.Faults
import CableRegistry.OtherLimits

/-!
# Replaying a log

Two registries are `Alike` when they have the same configuration and the same core.
Replaying a record keeps them alike (`Alike.replayRecord`).  What a live operation appends
to the log does to a registry that replays it what the operation did to the live one: the
lemmas about `evidenceRecord`, `sessionRecord`, `closeRecord` and `imageRecord` say what
each of them replays to.
-/

open Std

namespace CableRegistry

variable {live persist : Bool} {e : Evidence} {i : Incarnation} {index : Option LabelIndex}
  {r r' : Registry} {s : RegistryState} {d : SourceDescriptor} {io : Store.AppendIo}
  {record : StoreRecord} {t : Timestamp}

namespace Registry

/-! ### The label index -/

/-- The label index of the registry covers its registrations. -/
def Indexed (r : Registry) : Prop := CoveredBy r.state r.labelIndex

theorem labelIndex_decideSingle {m : Attestation} {o : GenerationOutcome} {u : ClaimUpdate}
    {texts : ClaimTexts} {insert : Decision}
    (h : insert.labelIndex = index ∨ insert.labelIndex = some (index.getD (LabelIndex.rebuild s))) :
    (decideSingle index m o u texts insert).labelIndex = index ∨
      (decideSingle index m o u texts insert).labelIndex =
        some (index.getD (LabelIndex.rebuild s)) := by
  cases o with
  | insert => exact h
  | _ => exact .inl rfl

/-- A decision leaves the label index alone, or builds it when it is missing. -/
theorem labelIndex_decideEvidence (limits : Limits) (s : RegistryState) (index : Option LabelIndex)
    (m : Attestation) (payload : EvidencePayload) :
    (decideEvidence limits s index m payload).labelIndex = index ∨
      (decideEvidence limits s index m payload).labelIndex =
        some (index.getD (LabelIndex.rebuild s)) := by
  cases payload with
  | registerObject p =>
    refine labelIndex_decideSingle (s := s) ?_
    dsimp only
    by_cases hl : p.descriptor.physicalLabel = []
    · simp only [hl, List.isEmpty_nil, Bool.not_true, Bool.false_eq_true, if_false]
      split <;> exact .inl rfl
    · have hne : (!p.descriptor.physicalLabel.isEmpty) = true := by simpa using hl
      simp only [hne, if_true]
      split
      · exact .inr rfl
      · split <;> exact .inr rfl
  | attach p | detach p | move p =>
    simp only [decideEvidence, decidePosition, apply_ite Decision.labelIndex]
    repeat' split
    all_goals exact .inl rfl
  | registerEndpoint p | reincarnateObject p =>
    refine labelIndex_decideSingle (s := s) (.inl ?_)
    simp only [apply_ite Decision.labelIndex]
    repeat' split
    all_goals rfl
  | _ => exact labelIndex_decideSingle (s := s) (.inl rfl)

theorem coveredBy_decideEvidence {limits : Limits} (h : CoveredBy s index) (m : Attestation)
    (payload : EvidencePayload) :
    CoveredBy s (decideEvidence limits s index m payload).labelIndex := by
  rcases labelIndex_decideEvidence limits s index m payload with he | he
  · rw [he]
    exact h
  · rw [he]
    intro i hi
    exact Option.some.inj hi ▸ covers_getD h

/-- **Evidence keeps the label index covering the registrations.** -/
theorem indexed_ingestLocked (h : r.Indexed) (e : Evidence) (t : Timestamp) (persist live : Bool)
    (io : Store.AppendIo) : (r.ingestLocked e t persist live io).1.Indexed := by
  have hi := r.ingests e t persist live io
  generalize r.ingestLocked e t persist live io = answer at hi ⊢
  cases hi with
  | stopping _ => exact h
  | refused _ _ =>
    unfold refuse
    split <;> exact h
  | @decided m committed _ _ hc =>
    obtain ⟨hstate, -, -, hindex, -⟩ := conclude_spec e persist (resultOf e t) committed
    have hd := @coveredBy_decideEvidence _ _ r.limits h m e.payload
    have hsame := (r.wrote_makeDurable e t persist io).state
    unfold Indexed
    rw [hstate, hindex]
    cases hc with
    | applied =>
      intro i hi
      obtain ⟨i₀, hi₀, rfl⟩ := Option.map_eq_some_iff.mp hi
      have hcovers := hd i₀ hi₀
      rw [← hsame] at hcovers
      exact hcovers.applyChange _ _
    | notDurable => exact hsame ▸ hd
    | kept _ => exact hd

theorem Indexed.of_same {r₁ : Registry} (h : r.Indexed) (hrest : SameRest r r₁)
    (hreg : r₁.state.objectRegistrations = r.state.objectRegistrations) : r₁.Indexed := by
  intro i hi object owner
  rw [hreg]
  rw [hrest.labelIndex] at hi
  exact h i hi object owner

theorem Does.indexed {q : Request} {r₁ : Registry} (h : Does r q r₁) (hi : r.Indexed) :
    r₁.Indexed := by
  cases h with
  | wrote _ hwrote => exact hi.of_same (hwrote.rest r₁.state) (by rw [hwrote.state])
  | opened hwrote => exact hi.of_same (hwrote.rest _) rfl
  | closed hwrote key => exact hi.of_same (hwrote.rest _) (applySessionClose_frame _ key).2
  | ingested e t io => exact indexed_ingestLocked hi e t true true io

/-! ### Registries alike -/

/-- The same configuration and the same core. -/
structure Alike (r r' : Registry) : Prop where
  limits : r'.limits = r.limits
  historyPerKey : r'.historyPerKey = r.historyPerKey
  closed : r'.closed = r.closed
  core : r'.state.core = r.state.core
  indexed : r.Indexed
  indexed' : r'.Indexed

theorem Alike.refl (h : r.Indexed) : Alike r r := ⟨rfl, rfl, rfl, rfl, h, h⟩

theorem Alike.symm (h : Alike r r') : Alike r' r :=
  ⟨h.limits.symm, h.historyPerKey.symm, h.closed.symm, h.core.symm, h.indexed', h.indexed⟩

theorem Alike.trans {r'' : Registry} (h : Alike r r') (h' : Alike r' r'') : Alike r r'' :=
  ⟨h'.limits.trans h.limits, h'.historyPerKey.trans h.historyPerKey, h'.closed.trans h.closed,
    h'.core.trans h.core, h.indexed, h'.indexed'⟩

theorem Alike.sources (h : Alike r r') : r'.state.sources = r.state.sources := by
  have hsources : r'.state.core.sources = r.state.core.sources := by rw [h.core]
  exact hsources

theorem contains_core_sessions (s : RegistryState) (key : SourceIncarnationKey) :
    s.core.sessions.contains key = s.sessions.contains key := by
  have hs : s.core.sessions = ExtTreeMap.map (fun _ session => coreBlur.session session) s.sessions :=
    rfl
  rw [hs, ExtTreeMap.contains_map]

theorem Alike.contains (h : Alike r r') (key : SourceIncarnationKey) :
    r'.state.sessions.contains key = r.state.sessions.contains key := by
  rw [← contains_core_sessions, h.core, contains_core_sessions]

/-- The attestations of a record in registries alike differ in the lifetime flag only. -/
theorem Alike.admitRecord (h : Alike r r') (e : Evidence) (t : Timestamp) (live live' : Bool) :
    (r'.admitRecord e t live').map (Attestation.blur coreBlur) =
      (r.admitRecord e t live).map (Attestation.blur coreBlur) := by
  unfold Registry.admitRecord
  rw [h.limits, h.sources, h.contains]
  cases validateEvidenceShape e r.limits with
  | error error => rfl
  | ok _ =>
    dsimp only
    cases r.state.sources[e.header.source]? with
    | none => rfl
    | some source =>
      dsimp only
      split
      · rfl
      split
      · rfl
      · rfl

/-- What is decided about a record, before it is made durable. -/
def judge (r : Registry) (e : Evidence) (t : Timestamp) (live : Bool) : IngestDisposition :=
  if r.closed then .refusedClosed
  else match r.admitRecord e t live with
    | .error (disposition, _) => disposition
    | .ok m => (decideEvidence r.limits r.state r.labelIndex m e.payload).disposition

theorem Alike.judge (h : Alike r r') (e : Evidence) (t : Timestamp) (live live' : Bool) :
    (r'.judge e t live').isAccepted = (r.judge e t live).isAccepted := by
  have hadm := h.admitRecord e t live live'
  unfold Registry.judge
  rw [h.closed]
  split
  · rfl
  cases ha : r.admitRecord e t live with
  | error refusal =>
    cases ha' : r'.admitRecord e t live' with
    | error refusal' =>
      rw [ha, ha'] at hadm
      rw [Except.error.inj hadm]
    | ok m' =>
      rw [ha, ha'] at hadm
      exact absurd hadm (by simp [Except.map])
  | ok m =>
    cases ha' : r'.admitRecord e t live' with
    | error refusal' =>
      rw [ha, ha'] at hadm
      exact absurd hadm (by simp [Except.map])
    | ok m' =>
      rw [ha, ha'] at hadm
      have heq : m'.blur coreBlur = m.blur coreBlur := Except.ok.inj hadm
      dsimp only
      rw [isAccepted_decideEvidence_core r'.limits h.indexed' m' e.payload,
        isAccepted_decideEvidence_core r.limits h.indexed m e.payload, h.limits, h.core, heq]

/-- A record that is not made durable is decided and nothing else. -/
theorem Commits.disposition {persist : Bool} {d : Decision}
    {committed : Registry × IngestDisposition × String} (h : Commits r e t persist io d committed) :
    committed.2.1 = d.disposition ∨ persist = true ∧ committed.2.1 = .refusedPersistence := by
  cases h with
  | notDurable hfailed =>
    cases persist with
    | true => exact .inr ⟨rfl, rfl⟩
    | false => exact absurd hfailed (by simp [makeDurable])
  | _ => exact .inl rfl

theorem disposition_ingestLocked (r : Registry) (e : Evidence) (t : Timestamp) (persist live : Bool)
    (io : Store.AppendIo) :
    (r.ingestLocked e t persist live io).2.disposition = r.judge e t live ∨
      (persist = true ∧ (r.ingestLocked e t persist live io).2.disposition = .refusedPersistence) := by
  have hi := r.ingests e t persist live io
  generalize r.ingestLocked e t persist live io = answer at hi ⊢
  unfold judge
  cases hi with
  | stopping hclosed =>
    rw [hclosed]
    exact .inl rfl
  | refused hclosed hm =>
    rw [hclosed, hm]
    exact .inl rfl
  | decided hclosed hm hc =>
    rw [hclosed, hm, (conclude_spec e persist _ _).2.1]
    exact hc.disposition

/-- A record is accepted in a registry that is open, with an attestation. -/
theorem of_isAccepted_judge (h : (r.judge e t live).isAccepted = true) :
    r.closed = false ∧ ∃ m, r.admitRecord e t live = .ok m ∧
      (decideEvidence r.limits r.state r.labelIndex m e.payload).disposition.isAccepted = true := by
  unfold judge at h
  cases hc : r.closed with
  | true => simp [hc, IngestDisposition.isAccepted] at h
  | false =>
    simp only [hc, Bool.false_eq_true, if_false] at h
    cases ha : r.admitRecord e t live with
    | error refusal =>
      have hn := admitRecord_eq_error ha
      simp only [ha] at h
      exact absurd (hn.symm.trans h) (by simp)
    | ok m =>
      simp only [ha] at h
      exact ⟨rfl, m, rfl, h⟩

/-! ### One record -/

/-- What a record of the given attestation does to the core. -/
theorem core_ingestLocked_accepted
    (h : (r.ingestLocked e t persist live io).2.disposition.isAccepted = true) :
    ∃ m, r.admitRecord e t live = .ok m ∧
      (r.ingestLocked e t persist live io).1.state.core =
        accept r.historyPerKey r.state.core (m.blur coreBlur) e := by
  obtain ⟨m, session, -, hm, -, -, hstate⟩ := ingestLocked_accepted h
  obtain ⟨-, -, hs⟩ := admitRecord_eq_ok hm
  refine ⟨m, hm, ?_⟩
  have hkeys : (accept r.historyPerKey r.state m e).sessions = r.state.sessions :=
    applyChange_sessions _ _ _
  rw [hstate, ← core_accept, ← hkeys]
  exact core_insert_session (by rw [hkeys]; exact hs) session

theorem core_ingestLocked_refused
    (h : (r.ingestLocked e t persist live io).2.disposition.isAccepted = false) :
    (r.ingestLocked e t persist live io).1.state.core = r.state.core := by
  rcases ingestLocked_refused h with hstate | ⟨hs, session, hstate⟩
  · rw [hstate]
  · rw [hstate]
    exact core_insert_session hs session

/-- **A record does the same to registries alike**, unless one of them could not make it
durable. -/
theorem Alike.ingestLocked (h : Alike r r') (e : Evidence) (t : Timestamp)
    (persist live live' : Bool) (io io' : Store.AppendIo)
    (hdisp : (r.ingestLocked e t persist live io).2.disposition = r.judge e t live) :
    Alike (r.ingestLocked e t persist live io).1 (r'.ingestLocked e t false live' io').1 := by
  have hdisp' : (r'.ingestLocked e t false live' io').2.disposition.isAccepted =
      (r.judge e t live).isAccepted := by
    rcases r'.disposition_ingestLocked e t false live' io' with hd | ⟨hp, -⟩
    · rw [hd]
      exact h.judge e t live live'
    · exact absurd hp (by simp)
  have hc := r.ingestLocked_config e t persist live io
  have hc' := r'.ingestLocked_config e t false live' io'
  refine ⟨?_, ?_, ?_, ?_, indexed_ingestLocked h.indexed _ _ _ _ _,
    indexed_ingestLocked h.indexed' _ _ _ _ _⟩
  · rw [hc.limits, hc'.limits, h.limits]
  · rw [hc.historyPerKey, hc'.historyPerKey, h.historyPerKey]
  · rw [hc.closed, hc'.closed, h.closed]
  · cases hacc : (r.judge e t live).isAccepted with
    | true =>
      obtain ⟨m, hm, hcore⟩ := core_ingestLocked_accepted (by rw [hdisp]; exact hacc)
      obtain ⟨m', hm', hcore'⟩ := core_ingestLocked_accepted (hdisp'.trans hacc)
      have hmap := h.admitRecord e t live live'
      rw [hm, hm'] at hmap
      have heq : m'.blur coreBlur = m.blur coreBlur := Except.ok.inj hmap
      rw [hcore, hcore', h.core, h.historyPerKey, heq]
    | false =>
      rw [core_ingestLocked_refused (hdisp'.trans hacc),
        core_ingestLocked_refused (by rw [hdisp]; exact hacc), h.core]

/-! ### Sessions -/

theorem core_sessions_insert (s : RegistryState) (key : SourceIncarnationKey)
    (session : SessionRecord) :
    ExtTreeMap.map (fun _ session => coreBlur.session session) (s.sessions.insert key session) =
      s.core.sessions.insert key {} := by
  have hs : s.core.sessions = ExtTreeMap.map (fun _ session => coreBlur.session session) s.sessions :=
    rfl
  apply ExtTreeMap.ext_getElem?
  intro key'
  rw [hs]
  simp only [ExtTreeMap.getElem?_map, OrdMap.find_insert]
  split <;> rfl

/-- What a session that opens does to a core. -/
def openCore (s : RegistryState) (d : SourceDescriptor) (i : Incarnation) : RegistryState :=
  { s with
    sources := s.sources.insert d.id (registerSource (s.sources.getD d.id {}) d i)
    sessions := s.sessions.insert ⟨d.id, i⟩ {} }

theorem core_applySessionOpen (s : RegistryState) (d : SourceDescriptor) (i : Incarnation)
    (t : Timestamp) : (applySessionOpen s d i t).core = openCore s.core d i := by
  have hs : (applySessionOpen s d i t).core.sessions = s.core.sessions.insert ⟨d.id, i⟩ {} :=
    core_sessions_insert s ⟨d.id, i⟩ _
  have hrest : (applySessionOpen s d i t).core =
      { openCore s.core d i with sessions := (applySessionOpen s d i t).core.sessions } := rfl
  rw [hrest, hs]
  rfl

/-- Going live is not part of the core. -/
theorem core_openState (s : RegistryState) (d : SourceDescriptor) (i : Incarnation) (t : Timestamp) :
    (openState s d i t).core = openCore s.core d i := by
  obtain ⟨session, hsession⟩ := openState_sessions s d i t
  have hs : (openState s d i t).core.sessions = s.core.sessions.insert ⟨d.id, i⟩ {} := by
    rw [← core_sessions_insert s ⟨d.id, i⟩ session, ← hsession]
    rfl
  have hsrc : (openState s d i t).core.sources =
      s.sources.insert d.id (registerSource (s.sources.getD d.id {}) d i) := openState_sources s d i t
  have hrest : (openState s d i t).core =
      { openCore s.core d i with
        sources := (openState s d i t).core.sources
        sessions := (openState s d i t).core.sessions } := rfl
  rw [hrest, hs, hsrc]
  rfl

theorem core_applySessionClose (s : RegistryState) (key : SourceIncarnationKey) :
    (applySessionClose s key).core = s.core := by
  unfold applySessionClose
  cases hs : s.sessions[key]? with
  | none => rfl
  | some session =>
    refine core_insert_session ?_ _
    rw [ExtTreeMap.contains_eq_isSome_getElem?, hs]
    rfl

/-! ### Replaying a record -/

/-- A decoder that does not look at the registry is common to both. -/
theorem Alike.withState (h : Alike r r') {s' : RegistryState} (hcore : s'.core = s.core)
    (hreg : s.objectRegistrations = r.state.objectRegistrations)
    (hreg' : s'.objectRegistrations = r'.state.objectRegistrations) :
    Alike { r with state := s } { r' with state := s' } := by
  refine ⟨h.limits, h.historyPerKey, h.closed, hcore, ?_, ?_⟩
  · intro i hi object owner
    rw [show ({ r with state := s } : Registry).state.objectRegistrations = _ from hreg]
    exact h.indexed i hi object owner
  · intro i hi object owner
    rw [show ({ r' with state := s' } : Registry).state.objectRegistrations = _ from hreg']
    exact h.indexed' i hi object owner

/-- Both fail with the same error or both give registries alike. -/
inductive AlikeOutcome : Except String Registry → Except String Registry → Prop
  | error (error : String) : AlikeOutcome (.error error) (.error error)
  | ok {r r' : Registry} (h : Alike r r') : AlikeOutcome (.ok r) (.ok r')

/-- **Replaying a record keeps registries alike.** -/
theorem Alike.replayRecord (h : Alike r r') (record : StoreRecord) :
    AlikeOutcome (r.replayRecord record) (r'.replayRecord record) := by
  obtain ⟨options', limits', history', state', store', recovery', refusals', closed', index'⟩ := r'
  obtain rfl : limits' = r.limits := h.limits
  unfold Registry.replayRecord
  dsimp only
  split
  · split
    · exact .error _
    · rename_i loaded _
      refine .ok ⟨rfl, h.historyPerKey, h.closed, rfl, ?_, ?_⟩
      · intro i hi
        cases hi
      · intro i hi
        cases hi
  split
  · split
    · exact .error _
    · split
      · exact .error _
      · refine .ok (h.withState ?_ rfl rfl)
        rw [core_applySessionOpen, core_applySessionOpen, h.core]
  split
  · split
    · exact .error _
    · rename_i key _
      refine .ok (h.withState ?_ ?_ ?_)
      · rw [core_applySessionClose, core_applySessionClose, h.core]
      · unfold applySessionClose
        split <;> rfl
      · unfold applySessionClose
        split <;> rfl
  split
  · split
    · exact .error _
    · rename_i t e _
      refine .ok (h.ingestLocked e t false false false .written .written ?_)
      rcases r.disposition_ingestLocked e t false false .written with hd | ⟨hp, -⟩
      · exact hd
      · exact absurd hp (by simp)
  · exact .error _

/-- Replays a list of records; the first that cannot be replayed stops it. -/
def replayAll (r : Registry) (records : List StoreRecord) : Except String Registry :=
  records.foldlM Registry.replayRecord r

theorem Alike.replayAll (h : Alike r r') (records : List StoreRecord) :
    AlikeOutcome (r.replayAll records) (r'.replayAll records) := by
  induction records generalizing r r' with
  | nil => exact .ok h
  | cons record records ih =>
    have hstep := h.replayRecord record
    unfold Registry.replayAll at ih ⊢
    rw [List.foldlM_cons, List.foldlM_cons]
    cases hr : r.replayRecord record with
    | error error =>
      rw [hr] at hstep
      cases hr' : r'.replayRecord record with
      | error error' =>
        rw [hr'] at hstep
        cases hstep
        exact .error _
      | ok r₁' =>
        rw [hr'] at hstep
        cases hstep
    | ok r₁ =>
      rw [hr] at hstep
      cases hr' : r'.replayRecord record with
      | error error' =>
        rw [hr'] at hstep
        cases hstep
      | ok r₁' =>
        rw [hr'] at hstep
        cases hstep with
        | ok h₁ => exact ih h₁

theorem replayAll_singleton (r : Registry) (record : StoreRecord) :
    r.replayAll [record] = r.replayRecord record := by
  unfold replayAll
  rw [List.foldlM_cons]
  cases r.replayRecord record <;> rfl

theorem replayAll_concat (r : Registry) (records : List StoreRecord) (record : StoreRecord) :
    r.replayAll (records ++ [record]) =
      (r.replayAll records).bind fun r' => r'.replayRecord record := by
  unfold replayAll
  rw [List.foldlM_append]
  cases List.foldlM Registry.replayRecord r records with
  | error error => rfl
  | ok r' => exact replayAll_singleton r' record

theorem replayAll_concat_eq_ok {records : List StoreRecord} :
    r.replayAll (records ++ [record]) = .ok r' ↔
      ∃ r₀, r.replayAll records = .ok r₀ ∧ r₀.replayRecord record = .ok r' := by
  rw [replayAll_concat]
  cases r.replayAll records with
  | error error => simp [Except.bind]
  | ok r₀ => simp [Except.bind]

/-- The visitor of an open replays the records. -/
theorem visitAll_replayVisit (records : List StoreRecord) (r r' : Registry) :
    Store.visitAll replayVisit (r, none) records = (r', none) ↔ r.replayAll records = .ok r' := by
  induction records generalizing r with
  | nil =>
    show (r, (none : Option String)) = (r', none) ↔ (Except.ok r : Except String Registry) = .ok r'
    simp
  | cons record records ih =>
    have hcons : r.replayAll (record :: records) =
        (r.replayRecord record).bind fun r₁ => r₁.replayAll records := by
      unfold replayAll
      rw [List.foldlM_cons]
      rfl
    rw [hcons]
    unfold Store.visitAll
    unfold replayVisit
    cases r.replayRecord record with
    | error error => simp [Except.bind]
    | ok r₁ =>
      simp only [if_true]
      exact ih r₁

/-! ### What is appended is replayed -/

section Appended

variable {r : Registry} {e : Evidence} {t : Timestamp} {limits : Limits}

/-- The record of accepted evidence in the log. -/
def evidenceRecord (e : Evidence) (t : Timestamp) (limits : Limits) : StoreRecord :=
  ⟨.evidence, (Encoder.run (encodeEnvelope e t limits)).take⟩

/-- The record of an opened session in the log. -/
def sessionRecord (d : SourceDescriptor) (i : Incarnation) (t : Timestamp) (limits : Limits) :
    StoreRecord :=
  ⟨.sessionOpen, (Encoder.run (encodeSessionOpen d i t limits)).take⟩

/-- The record of a closed session in the log. -/
def closeRecord (key : SourceIncarnationKey) : StoreRecord :=
  ⟨.sessionClose, (Encoder.run (encodeSessionClose key)).take⟩

/-- How the replay reads the payload of an evidence record. -/
abbrev envelopeReader (limits : Limits) : Decoder (Timestamp × Evidence) := do
  let envelopeVersion ← Decoder.u32
  guard (envelopeVersion = 1)
  let receivedAt ← Decoder.i64
  let evidence ← decodeEvidence limits
  pure (receivedAt, evidence)

/-- How the replay reads the payload of a session record. -/
abbrev sessionReader (limits : Limits) : Decoder (SourceDescriptor × Incarnation × Timestamp) := do
  let descriptor ← decodeSourceDescriptor limits
  let incarnation ← Decoder.u64
  let openedAt ← Decoder.i64
  pure (descriptor, incarnation, openedAt)

theorem length_take_run (ws : List Write) :
    (Encoder.run ws).take.length ≤ Encoder.kMaxEncodedBytes := by
  rw [Encoder.run_eq]
  split
  · rename_i h
    exact h.2
  · exact Nat.zero_le _

/-- **Replaying an evidence record ingests the evidence**, unless it declares a port
capability outside the vocabulary. -/
theorem replayRecord_evidence (hs : validateEvidenceShape e r.limits = .ok ())
    (hok : (Encoder.run (encodeEnvelope e t r.limits)).ok = true) :
    r.replayRecord (evidenceRecord e t r.limits) =
      if e.payload.undeclaredPortVocabulary then .error "an evidence record could not be decoded"
      else .ok (r.ingestLocked e t false false .written).1 := by
  have hr : Carries (envelopeReader r.limits) (encodeEnvelope e t r.limits) (t, e)
      (e.payload.undeclaredPortVocabulary = false) :=
    .congr (.u32 <| .check fun _ => .i64 <| .thenPure (carries_evidence_of_shape hs) rfl) (by simp)
  have hr := hr (Encoder.encodes hok)
  unfold replayRecord evidenceRecord
  rw [Encoder.take_run _ hok]
  simp only [RecordKind.evidence, RecordKind.stateSnapshot, RecordKind.sessionOpen,
    RecordKind.sessionClose, RecordKind.mk.injEq, if_true]
  cases hv : e.payload.undeclaredPortVocabulary with
  | true =>
    rw [Decoder.whole_eq_none hr (by simp [hv])]
    rfl
  | false =>
    rw [(Decoder.whole_eq_some_iff hr).mpr hv]
    rfl

/-- What the checks of an open establish. -/
structure Admissible (s : RegistryState) (limits : Limits) (d : SourceDescriptor) (i : Incarnation) :
    Prop where
  named : d.id.isNil = false
  positive : i ≠ 0
  declared : d.authority.authorityClass.declared = true
  room : s.sources[d.id]? = none → s.sources.size < limits.maxSources.toNat
  current : ∀ source, s.sources[d.id]? = some source → source.currentIncarnation ≤ i
  bound : ∀ source, s.sources[d.id]? = some source → i = source.currentIncarnation →
    source.described = true → source.descriptor = d

theorem admitSession_eq_ok (h : r.admitSession d i = .ok ()) : Admissible r.state r.limits d i := by
  simp only [admitSession, refuseIf_bind_eq_ok, refuseIf_eq_ok] at h
  obtain ⟨-, hset, -, hclass, hroom, hfenced, hdescriptor⟩ := h
  simp only [Bool.or_eq_false_iff, beq_eq_false_iff_ne] at hset
  refine ⟨hset.1, hset.2, by simpa using hclass, ?_, ?_, ?_⟩
  · intro hnone
    simpa [hnone] using hroom
  · intro source hsource
    simpa [hsource] using hfenced
  · intro source hsource hi hd
    simp only [hsource, Option.any_some, Option.map_some, Option.getD_some, Bool.and_eq_false_iff,
      beq_eq_false_iff_ne, bne_eq_false_iff_eq] at hdescriptor
    rcases hdescriptor with (hne | hnd) | heq
    · exact absurd hi hne
    · exact absurd (hnd.symm.trans hd) (by simp)
    · exact heq

/-- **Replaying a session record opens the session.** -/
theorem replayRecord_session (hnamed : d.id.isNil = false) (hpositive : i ≠ 0)
    (hdeclared : d.authority.authorityClass.declared = true)
    (hok : (Encoder.run (encodeSessionOpen d i t r.limits)).ok = true) :
    r.replayRecord (sessionRecord d i t r.limits) =
      .ok { r with state := applySessionOpen r.state d i t } := by
  have hr : Carries (sessionReader r.limits) (encodeSessionOpen d i t r.limits) (d, i, t)
      (d.authority.authorityClass.declared ∧ d.id.isNil = false) :=
    .congr (.bind (carries_sourceDescriptor d r.limits) fun _ => .u64 <| .i64 <| .pure (d, i, t))
      (by simp)
  have hr := hr (Encoder.encodes hok)
  unfold replayRecord sessionRecord
  rw [Encoder.take_run _ hok]
  simp only [RecordKind.stateSnapshot, RecordKind.sessionOpen, RecordKind.mk.injEq, if_true]
  rw [(Decoder.whole_eq_some_iff hr).mpr ⟨hdeclared, hnamed⟩]
  simp [hpositive, hnamed]

theorem run_encodeSessionClose (key : SourceIncarnationKey) :
    (Encoder.run (encodeSessionClose key)).ok = true := by
  rw [Encoder.run_ok_iff]
  refine ⟨by simp [encodeSessionClose, Write.Fits], ?_⟩
  simp only [encodeSessionClose, wire_cons, wire_nil, Write.toBytes, List.length_append,
    length_leBytes, List.length_nil]
  decide

theorem replayRecord_close (key : SourceIncarnationKey) :
    r.replayRecord (closeRecord key) = .ok { r with state := applySessionClose r.state key } := by
  have hr : Carries (do
      let source ← Decoder.strongId
      let incarnation ← Decoder.u64
      pure (⟨source, incarnation⟩ : SourceIncarnationKey)) (encodeSessionClose key) key True :=
    .strongId <| .u64 <| .pure key
  have hr := hr (Encoder.encodes (run_encodeSessionClose key))
  unfold replayRecord closeRecord
  rw [Encoder.take_run _ (run_encodeSessionClose key)]
  simp only [RecordKind.stateSnapshot, RecordKind.sessionOpen, RecordKind.sessionClose,
    RecordKind.mk.injEq, if_true]
  rw [(Decoder.whole_eq_some_iff hr).mpr trivial]
  rfl

/-- The record of a state image in the log. -/
def imageRecord (r : Registry) : StoreRecord := ⟨.stateSnapshot, r.imageOf.take⟩

theorem portsKeyed_clearVolatile (h : WellKeyed s) :
    (clearVolatile s).PortsKeyed := by
  have hb : WellKeyed (clearVolatile s) := h.blur _
  intro entry hentry slot hslot
  refine hb.port_eq entry.1 slot.1 slot.2 ?_
  rw [OrdMap.find₂, OrdMap.mem_toList.mp hentry]
  exact OrdMap.mem_toList.mp hslot

/-- What the decoder makes of the image of a registry. -/
theorem reads_imageOf (hw : WellKeyed r.state) (hok : r.imageOf.ok = true) :
    Reads (decodeState r.limits) r.imageOf.take (clearVolatile r.state)
      ((clearVolatile r.state).ImageCounts r.limits ∧
        (clearVolatile r.state).ImageContents r.limits) := by
  unfold imageOf
  rw [Encoder.take_run _ hok]
  exact carries_state r.limits (clearVolatile r.state) (portsKeyed_clearVolatile hw)
    (Encoder.encodes hok)

/-- Replaying a state image loads the state it is an image of, if it loads at all.  The
limits need not be those it was written under. -/
theorem replayRecord_image {r'' : Registry} (hw : WellKeyed r.state) (hok : r.imageOf.ok = true)
    (h : r'.replayRecord r.imageRecord = .ok r'') :
    r'' = { r' with state := clearVolatile r.state, labelIndex := none } := by
  have hback : ReadsBack (decodeState r'.limits) r.imageOf.take (clearVolatile r.state) := by
    unfold imageOf
    rw [Encoder.take_run _ hok]
    exact (carriesBack_state r.limits r'.limits (portsKeyed_clearVolatile hw)).back
      (Encoder.encodes hok)
  unfold replayRecord imageRecord at h
  simp only [if_true] at h
  split at h
  · exact absurd h (by simp)
  · rename_i loaded hloaded
    rw [← Except.ok.inj h, Decoder.eq_of_whole hback hloaded]

/-- Replaying an evidence record ingests the evidence, if it is read at all; and then it is within
the limits that the decoder looks at. -/
theorem replayRecord_evidence_back (hs : validateEvidenceShape e limits = .ok ())
    (hok : (Encoder.run (encodeEnvelope e t limits)).ok = true)
    (h : r.replayRecord (evidenceRecord e t limits) = .ok r') :
    r' = (r.ingestLocked e t false false .written).1 ∧
      fits e.header.provenanceDetail r.limits.maxStringBytes ∧ e.payload.Fits r.limits := by
  have hback : CarriesBack (envelopeReader r.limits) (encodeEnvelope e t limits) (t, e) := by
    obtain ⟨c, he⟩ := carriesBack_evidence limits r.limits e
    exact ⟨_, .u32 <| .check fun _ => .i64 <| .thenPure he rfl⟩
  have hback := hback.back (Encoder.encodes hok)
  have hyields : Yields (envelopeReader r.limits) fun p : Timestamp × Evidence =>
      fits p.2.header.provenanceDetail r.limits.maxStringBytes ∧ p.2.payload.Fits r.limits :=
    .skip fun _ => .checkThen fun _ => .skip fun _ => (yields_evidence r.limits).bind fun _ hfits =>
      .pure hfits
  unfold replayRecord evidenceRecord at h
  rw [Encoder.take_run _ hok] at h
  dsimp only at h
  rw [if_neg (by decide), if_neg (by decide), if_neg (by decide), if_pos rfl] at h
  split at h
  · exact absurd h (by simp)
  · rename_i hread
    have hfits := Decoder.of_whole hyields hread
    obtain ⟨rfl, rfl⟩ := Prod.mk.inj (Decoder.eq_of_whole hback hread)
    exact ⟨(Except.ok.inj h).symm, hfits⟩

/-- Replaying a session record opens the session, if it is read at all. -/
theorem replayRecord_session_back (hok : (Encoder.run (encodeSessionOpen d i t limits)).ok = true)
    (h : r.replayRecord (sessionRecord d i t limits) = .ok r') :
    r' = { r with state := applySessionOpen r.state d i t } := by
  have hback : CarriesBack (sessionReader r.limits) (encodeSessionOpen d i t limits) (d, i, t) := by
    obtain ⟨c, hd⟩ := carriesBack_sourceDescriptor limits r.limits d
    exact ⟨_, .bind hd fun _ => .u64 <| .i64 <| .pure (d, i, t)⟩
  have hback := hback.back (Encoder.encodes hok)
  unfold replayRecord sessionRecord at h
  rw [Encoder.take_run _ hok] at h
  dsimp only at h
  rw [if_neg (by decide), if_pos rfl] at h
  split at h
  · exact absurd h (by simp)
  · rename_i hread
    obtain ⟨rfl, hrest⟩ := Prod.mk.inj (Decoder.eq_of_whole hback hread)
    obtain ⟨rfl, rfl⟩ := Prod.mk.inj hrest
    split at h
    · exact absurd h (by simp)
    · exact (Except.ok.inj h).symm

end Appended

/-- **What replaying a record can do.** -/
theorem replayRecord_cases (h : r.replayRecord record = .ok r') :
    (record.kind = .stateSnapshot ∧ ∃ s, r' = { r with state := s, labelIndex := none }) ∨
    (record.kind ≠ .stateSnapshot ∧
      ((∃ d i t, r' = { r with state := applySessionOpen r.state d i t }) ∨
        (∃ key, r' = { r with state := applySessionClose r.state key }) ∨
        ∃ e t, r' = (r.ingestLocked e t false false .written).1)) := by
  unfold replayRecord at h
  split at h
  · rename_i hkind
    split at h
    · exact absurd h (by simp)
    · exact .inl ⟨hkind, _, (Except.ok.inj h).symm⟩
  rename_i hkind
  refine .inr ⟨hkind, ?_⟩
  split at h
  · dsimp only at h
    split at h
    · exact absurd h (by simp)
    · split at h
      · exact absurd h (by simp)
      · exact .inl ⟨_, _, _, (Except.ok.inj h).symm⟩
  split at h
  · dsimp only at h
    split at h
    · exact absurd h (by simp)
    · exact .inr (.inl ⟨_, (Except.ok.inj h).symm⟩)
  split at h
  · dsimp only at h
    split at h
    · exact absurd h (by simp)
    · exact .inr (.inr ⟨_, _, (Except.ok.inj h).symm⟩)
  · exact absurd h (by simp)

theorem store_ingestLocked_replayed (r : Registry) (e : Evidence) (t : Timestamp) (live : Bool)
    (io : Store.AppendIo) : (r.ingestLocked e t false live io).1.store = r.store := by
  have hi := r.ingests e t false live io
  generalize r.ingestLocked e t false live io = answer at hi ⊢
  cases hi with
  | decided _ _ hc =>
    rw [(conclude_spec e false _ _).2.2.1]
    cases hc with
    | _ => rfl
  | _ => rfl

/-- Replaying changes neither the configuration nor the store. -/
theorem replayRecord_config (h : r.replayRecord record = .ok r') :
    SameConfig r r' ∧ r'.store = r.store := by
  rcases replayRecord_cases h with ⟨-, s, rfl⟩ | ⟨-, ⟨d, i, t, rfl⟩ | ⟨key, rfl⟩ | ⟨e, t, rfl⟩⟩
  · exact ⟨⟨rfl, rfl, rfl, rfl⟩, rfl⟩
  · exact ⟨⟨rfl, rfl, rfl, rfl⟩, rfl⟩
  · exact ⟨⟨rfl, rfl, rfl, rfl⟩, rfl⟩
  · exact ⟨ingestLocked_config r e t false false .written,
      store_ingestLocked_replayed r e t false .written⟩

theorem replayAll_config (records : List StoreRecord) (h : r.replayAll records = .ok r') :
    SameConfig r r' ∧ r'.store = r.store := by
  induction records generalizing r with
  | nil =>
    rw [← Except.ok.inj (show (Except.ok r : Except String Registry) = .ok r' from h)]
    exact ⟨.refl r, rfl⟩
  | cons record records ih =>
    obtain ⟨r₁, hr, h⟩ := foldlM_cons_eq_ok.mp h
    obtain ⟨hc, hs⟩ := replayRecord_config hr
    obtain ⟨hc', hs'⟩ := ih h
    exact ⟨hc.trans hc', hs'.trans hs⟩

/-! ### Live operations -/

section Live

variable {r : Registry} {store : Store}

/-- A record that can be encoded is appended to the log. -/
theorem makeDurable_cases (hs : r.store = some store) (e : Evidence) (t : Timestamp)
    (io : Store.AppendIo) :
    r.makeDurable e t true io = (r, false) ∨
    ((Encoder.run (encodeEnvelope e t r.limits)).ok = true ∧
      r.makeDurable e t true io =
        ({ r with store := some (store.append (evidenceRecord e t r.limits) io).1 },
          (store.append (evidenceRecord e t r.limits) io).2.isOk)) := by
  unfold makeDurable persistEvidence
  cases hok : (Encoder.run (encodeEnvelope e t r.limits)).ok with
  | false => exact .inl (by simp [hs, hok])
  | true =>
    refine .inr ⟨rfl, ?_⟩
    simp only [hs, hok, Option.isNone_some, Bool.false_eq_true, if_false, if_true, Bool.not_true,
      appendRecord, evidenceRecord]

/-- **What an ingest does to the store.**  Either nothing, and then nothing to the core
either, or it appends the record of the evidence. -/
theorem ingest_cases (hs : r.store = some store) (e : Evidence) (t : Timestamp)
    (io : Store.AppendIo) :
    ((r.ingest e t io).1.store = r.store ∧ (r.ingest e t io).1.state.core = r.state.core) ∨
    ((r.judge e t true).isAccepted = true ∧
      (Encoder.run (encodeEnvelope e t r.limits)).ok = true ∧
      (r.ingest e t io).1.store = some (store.append (evidenceRecord e t r.limits) io).1 ∧
      (((store.append (evidenceRecord e t r.limits) io).2 = .ok () ∧
          (r.ingest e t io).2.disposition = r.judge e t true) ∨
        ((∃ error, (store.append (evidenceRecord e t r.limits) io).2 = .error error) ∧
          (r.ingest e t io).1.state.core = r.state.core))) := by
  have hi := r.ingests e t true true io
  have hwrote := r.wrote_makeDurable e t true io
  unfold ingest judge
  generalize r.ingestLocked e t true true io = answer at hi ⊢
  cases hi with
  | stopping _ => exact .inl ⟨rfl, rfl⟩
  | refused _ _ => exact .inl ⟨rfl, rfl⟩
  | @decided m committed hclosed hm hc =>
    obtain ⟨hstate, hdisp, hstore, -, -⟩ := conclude_spec e true (resultOf e t) committed
    have hcore : committed.1.state = r.state →
        (conclude e true (resultOf e t) committed).1.state.core = r.state.core := by
      intro hsame
      rw [hstate, hsame]
      exact core_insert_session (admitRecord_eq_ok hm).2.2 _
    rw [hclosed, hm, hdisp, hstore]
    cases hc with
    | kept _ => exact .inl ⟨rfl, hcore rfl⟩
    | applied hdurable _ hacc =>
      rcases makeDurable_cases hs e t io with hp | ⟨hok, hp⟩
      · exact absurd (hdurable.symm.trans (congrArg Prod.snd hp)) (by simp)
      · rw [hp] at hdurable
        exact .inr ⟨hacc, hok, congrArg (fun made => made.1.store) hp, .inl ⟨ok_of_isOk hdurable, rfl⟩⟩
    | notDurable hfailed _ hacc =>
      rcases makeDurable_cases hs e t io with hp | ⟨hok, hp⟩
      · exact .inl ⟨congrArg (fun made => made.1.store) hp, hcore hwrote.state⟩
      · rw [hp] at hfailed
        exact .inr ⟨hacc, hok, congrArg (fun made => made.1.store) hp,
          .inr ⟨error_of_isOk hfailed, hcore hwrote.state⟩⟩

end Live

end Registry

/-! ### Appends that leave nothing behind -/

namespace Store

/-- The append succeeds or leaves nothing behind. -/
def AppendIo.Tidy (fsyncOnCommit : Bool) : AppendIo → Prop
  | .written => True
  | .torn count _ => count = 0
  | .notSynced _ => fsyncOnCommit = false

/-- The log is not replaced behind the back of the store. -/
def RewriteIo.Tidy : RewriteIo → Prop
  | .notReopened _ => False
  | _ => True

section Tidy

variable {store : Store} {header : List UInt8} {records : List StoreRecord} {record : StoreRecord}

/-- **A tidy append advances the store or leaves it as it was.** -/
theorem Holds.append_tidy (h : store.Holds header records [])
    (hlen : record.payload.length + 56 < 2 ^ 32) {io : AppendIo}
    (htidy : io.Tidy store.options.fsyncOnCommit) :
    (store.append record io = (store.advance record, .ok ()) ∧
      (store.advance record).Holds header (records ++ [record]) []) ∨
    ∃ error, store.append record io = (store, .error error) := by
  have hwritten : (store.append record .written = (store.advance record, .ok ()) ∧
      (store.advance record).Holds header (records ++ [record]) []) ∨
      ∃ error, store.append record .written = (store, .error error) := by
    rcases append_cases store hlen .written with ⟨hfit, -, happ⟩ | herr | ⟨-, hne, -⟩
    · exact .inl ⟨happ, by simpa using h.advance hfit⟩
    · exact .inr herr
    · exact absurd rfl hne
  cases io with
  | written => exact hwritten
  | notSynced message =>
    have hf : store.options.fsyncOnCommit = false := htidy
    have heq : store.append record (.notSynced message) = store.append record .written := by
      simp [append, hf]
    rw [heq]
    exact hwritten
  | torn written message =>
    have hzero : written = 0 := htidy
    rcases append_cases store hlen (.torn written message) with ⟨hfit, -, happ⟩ | herr |
      ⟨-, -, error, happ⟩
    · exact .inl ⟨happ, by simpa using h.advance hfit⟩
    · exact .inr herr
    · refine .inr ⟨error, ?_⟩
      have hw : store.writes record (.torn written message) = 0 := by
        unfold writes
        split
        · rfl
        · simp [hzero]
      have hfile : Store.writeAt store.file store.writeOffset [] = store.file := by
        rw [h.writeAt [], h.file]
        simp
      rw [happ, hw, List.take_zero, hfile]

end Tidy

end Store

end CableRegistry
