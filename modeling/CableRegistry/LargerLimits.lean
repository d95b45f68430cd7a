import CableRegistry.Lifetimes
import CableRegistry.Winners

/-!
# A log under other limits

A record of a log that does not fit the limits it is read under is not read, and the open fails.
But what becomes of a record after it was read is not looked at: a record that finds no room, or
that names a slot there is not, is left out, and the open succeeds.  So a log that was written
under larger limits can open with records missing (`open_leaves_out`).

Under limits that are not smaller in what is checked after the reading nothing is missing
(`larger_limits_restore`).  `Mirrors` relates a registry to one that was replayed from its log under
other options; every request keeps it (`Mirrored.step`), because a record that one of them accepts
the other accepts as well.
-/

open Std (ExtTreeMap)

namespace CableRegistry

variable {requests : List Request}

namespace Registry

/-- A registry that was replayed under other options, and the one that wrote its log: they hold the
same winners. -/
structure Mirrors (options' : RegistryOptions) (r r' : Registry) : Prop where
  limits : r'.limits = options'.limits
  closed : r'.closed = false
  wellKeyed : WellKeyed r'.state
  indexed : r'.Indexed
  same : SameWinners r.state r'.state

section Mirrors

variable {options' : RegistryOptions} {r r₁ r' : Registry} {e : Evidence} {t : Timestamp}

theorem Mirrors.of_same (h : Mirrors options' r r') (hsame : SameWinners r₁.state r.state) :
    Mirrors options' r₁ r' :=
  ⟨h.limits, h.closed, h.wellKeyed, h.indexed, hsame.trans h.same⟩

/-- The attestation of a record is the same where the sources and the sessions are. -/
theorem admitRecord_of_sameWinners {m : Attestation} (h : SameWinners r.state r'.state)
    (hshape : validateEvidenceShape e r'.limits = .ok ()) (hm : r.admitRecord e t true = .ok m) :
    r'.admitRecord e t true = .ok m := by
  obtain ⟨-, ⟨source, hsource, hdescribed, rfl⟩, hsession⟩ := admitRecord_eq_ok hm
  unfold admitRecord
  rw [hshape, h.sources, hsource]
  dsimp only
  rw [if_neg (by simp [hdescribed]), h.sessions, if_neg (by simp [hsession])]

/-- **A record that is accepted is accepted again when it is replayed.** -/
theorem Mirrors.ingest (h : Mirrors options' r r') (hw : WellKeyed r.state) (hi : r.Indexed)
    (hlimits : r.limits.Within options'.limits) {io : Store.AppendIo}
    (hshape : validateEvidenceShape e r'.limits = .ok ())
    (hdisposition : (r.ingest e t io).2.disposition = r.judge e t true)
    (haccepted : (r.judge e t true).isAccepted = true) :
    Mirrors options' (r.ingest e t io).1 (r'.ingestLocked e t false false .written).1 := by
  rw [← h.limits] at hlimits
  obtain ⟨-, m, hm, hdecided⟩ := of_isAccepted_judge haccepted
  have hm' := admitRecord_of_sameWinners h.same hshape hm
  have hjudge' : (r'.judge e t true).isAccepted = true := by
    unfold judge
    rw [h.closed, hm']
    exact h.same.isAccepted hw h.wellKeyed hlimits hi h.indexed hdecided
  have hlive : (r'.ingestLocked e t false true .written).2.disposition = r'.judge e t true :=
    (r'.disposition_ingestLocked e t false true .written).resolve_right (by simp)
  obtain ⟨m₁, hm₁, ha⟩ := accepts_of_isAccepted hi
    (show (r.ingestLocked e t true true io).2.disposition.isAccepted = true by
      rw [show (r.ingestLocked e t true true io).2.disposition = _ from hdisposition, haccepted])
  obtain ⟨m₂, hm₂, ha'⟩ := accepts_of_isAccepted h.indexed
    (show (r'.ingestLocked e t false true .written).2.disposition.isAccepted = true by
      rw [hlive, hjudge'])
  obtain rfl := Except.ok.inj (hm.symm.trans hm₁)
  obtain rfl := Except.ok.inj (hm'.symm.trans hm₂)
  have hcore := ((Alike.refl h.indexed).ingestLocked e t false true false .written .written hlive).core
  have hcfg := r'.ingestLocked_config e t false false .written
  exact ⟨hcfg.limits.trans h.limits, hcfg.closed.trans h.closed,
    (r'.ingestLocked_frame e t false false .written).2.2 h.wellKeyed,
    indexed_ingestLocked h.indexed e t false false .written,
    (h.same.accepts hw h.wellKeyed ha ha').trans (.of_core hcore)⟩

theorem Mirrors.openSession (h : Mirrors options' r r') {d : SourceDescriptor} {i : Incarnation}
    {t' : Timestamp} (hstate : r₁.state = openState r.state d i t') :
    Mirrors options' r₁ { r' with state := applySessionOpen r'.state d i t } := by
  obtain ⟨session, hsession⟩ := openState_sessions r.state d i t'
  refine ⟨h.limits, h.closed, wellKeyed_applySessionOpen h.wellKeyed d i t, h.indexed, ?_⟩
  rw [hstate]
  refine ⟨fun k => ?_, ?_, fun key => ?_⟩
  · have hopen : (openState r.state d i t').winner k = r.state.winner k := by
      unfold RegistryState.winner
      rw [openState_lookup]
    have hreplayed : (applySessionOpen r'.state d i t).winner k = r'.state.winner k := by
      cases k <;> rfl
    exact hreplayed.trans ((h.same.winner k).trans hopen.symm)
  · rw [openState_sources, ← h.same.sources]
    rfl
  · have hkey := h.same.sessions key
    rw [hsession]
    show (r'.state.sessions.insert ⟨d.id, i⟩ _).contains key = _
    rw [ExtTreeMap.contains_insert, ExtTreeMap.contains_insert, hkey]

theorem Mirrors.closeSession (h : Mirrors options' r r') (key : SourceIncarnationKey)
    (hcore : r₁.state.core = r.state.core) :
    Mirrors options' r₁ { r' with state := applySessionClose r'.state key } := by
  obtain ⟨hw, hregistrations⟩ := wellKeyed_applySessionClose h.wellKeyed key
  exact ⟨h.limits, h.closed, hw, h.indexed.of_same ((Wrote.refl _).rest _) hregistrations,
    (SameWinners.of_core hcore).symm.trans (h.same.trans (.of_core (core_applySessionClose _ key)))⟩

end Mirrors

/-! ### Along a run -/

/-- The records are the log of the registry, and whatever they replay to under other options holds
what the registry holds. -/
structure Mirrored (options' : RegistryOptions) (r : Registry) (records : List StoreRecord) : Prop where
  synced : Synced r records
  wellKeyed : WellKeyed r.state
  mirrors : ∀ now report r', (blank options' now report).replayAll records = .ok r' →
    Mirrors options' r r'

section Run

variable {options' : RegistryOptions} {r r₁ : Registry} {records : List StoreRecord}

theorem Mirrored.same (h : Mirrored options' r records) (hsynced : Synced r₁ records)
    (hw : WellKeyed r₁.state) (hcore : r₁.state.core = r.state.core) : Mirrored options' r₁ records :=
  ⟨hsynced, hw, fun now report r' hr => (h.mirrors now report r' hr).of_same (.of_core hcore.symm)⟩

/-- One more record. -/
theorem Mirrored.append (h : Mirrored options' r records) {record : StoreRecord}
    (hsynced : Synced r₁ (records ++ [record])) (hw : WellKeyed r₁.state)
    (hrecord : ∀ r₀ r', Mirrors options' r r₀ → r₀.replayRecord record = .ok r' →
      Mirrors options' r₁ r') : Mirrored options' r₁ (records ++ [record]) := by
  refine ⟨hsynced, hw, fun now report r' hr => ?_⟩
  obtain ⟨r₀, hr₀, hr⟩ := replayAll_concat_eq_ok.mp hr
  exact hrecord r₀ r' (h.mirrors now report r₀ hr₀) hr

/-- A log that is an image. -/
theorem Mirrored.of_image {image : Registry} (hsynced : Synced r₁ [image.imageRecord])
    (hw : WellKeyed r₁.state) (hw₀ : WellKeyed image.state) (hok : image.imageOf.ok = true)
    (hcore : image.state.core = r₁.state.core) : Mirrored options' r₁ [image.imageRecord] := by
  refine ⟨hsynced, hw, fun now report r' hr => ?_⟩
  rw [replayAll_singleton] at hr
  rw [replayRecord_image hw₀ hok hr]
  exact ⟨rfl, rfl, hw₀.blur _, coveredBy_none _, .of_core ((core_clearVolatile _).trans hcore)⟩

/-- **A request leaves a log that holds what the registry holds**, also under the other options. -/
theorem Mirrored.step (h : Mirrored options' r records)
    (hlimits : r.options.limits.Within options'.limits) {q : Request} (htidy : q.Tidy r.options)
    (hstep : r.step q = .ok r₁) : r₁.options = r.options ∧ ∃ records', Mirrored options' r₁ records' := by
  rw [← h.synced.config.limits] at hlimits
  obtain ⟨records', hsynced, hextends⟩ := h.synced.step (fun _ _ => h.wellKeyed) htidy hstep
  have hframe : r₁.options = r.options ∧ WellKeyed r₁.state := by
    by_cases hq : ∃ env, q = .reopen env
    · obtain ⟨env, rfl⟩ := hq
      obtain ⟨hoptions, -, s₀, hstate, hcore⟩ := h.synced.reopen hstep
      rw [hstate, clearVolatile_of_core hcore]
      exact ⟨hoptions, wellKeyed_reframe (h.wellKeyed.blur _) _ _ _⟩
    · have hdoes := does (not_exists.mp hq) hstep
      exact ⟨hdoes.frame.1.options, hdoes.wellKeyed h.wellKeyed⟩
  obtain ⟨hoptions, hw⟩ := hframe
  refine ⟨hoptions, records', ?_⟩
  cases hextends with
  | same hcore => exact h.same hsynced hw hcore
  | imaged _ hok hstate => exact .of_image hsynced hw h.wellKeyed hok (by rw [hstate])
  | recorded hrecorded =>
    refine h.append hsynced hw fun r₀ r' hmirrors hr => ?_
    cases hrecorded with
    | opened _ hok hstate =>
      rw [replayRecord_session_back hok hr]
      exact hmirrors.openSession hstate
    | closed hstate =>
      rw [replayRecord_close] at hr
      obtain rfl := Except.ok.inj hr
      exact hmirrors.closeSession _ (by rw [hstate, core_applySessionClose])
    | ingested haccepted hok hdisposition =>
      obtain ⟨-, m, hm, -⟩ := of_isAccepted_judge haccepted
      have hshape := (admitRecord_eq_ok hm).1
      obtain ⟨rfl, hdetail, hfits⟩ := replayRecord_evidence_back hshape hok hr
      rw [← hmirrors.limits] at hlimits
      exact hmirrors.ingest h.wellKeyed h.synced.indexed (hmirrors.limits ▸ hlimits)
        (validateEvidenceShape_within hlimits hdetail hfits hshape) hdisposition haccepted

theorem Mirrored.run (h : Mirrored options' r records)
    (hlimits : r.options.limits.Within options'.limits) (htidy : ∀ q ∈ requests, q.Tidy r.options)
    (hrun : r.run requests = .ok r₁) :
    r₁.options = r.options ∧ ∃ records', Mirrored options' r₁ records' := by
  induction requests generalizing r records with
  | nil =>
    obtain rfl : r = r₁ := Except.ok.inj hrun
    exact ⟨rfl, records, h⟩
  | cons q requests ih =>
    obtain ⟨r₂, hstep, hrun⟩ := foldlM_cons_eq_ok.mp hrun
    obtain ⟨hoptions, records', h'⟩ := h.step hlimits (htidy q List.mem_cons_self) hstep
    obtain ⟨hoptions', hrest⟩ := ih h' (hoptions ▸ hlimits)
      (fun q' hq' => hoptions ▸ htidy q' (List.mem_cons_of_mem q hq')) hrun
    exact ⟨hoptions'.trans hoptions, hrest⟩

/-- What a run leaves is a log that holds what the registry holds. -/
theorem ReachedBy.mirrored {options : RegistryOptions} {storeOptions : StoreOptions}
    {es : List Evidence} (h : r.ReachedBy options requests es)
    (hstore : options.store = some storeOptions) (htidy : ∀ q ∈ requests, q.Tidy options)
    (hlimits : options.limits.Within options'.limits) : ∃ records, Mirrored options' r records := by
  obtain ⟨-, disk, env, r₀, hfresh, hopen, hrun, -⟩ := h
  obtain ⟨hoptions, records, hsynced, horigin⟩ := Synced.of_open hstore hopen
  have hfirst : ∃ records, Mirrored options' r₀ records := by
    cases horigin with
    | replayed report r₁ hold => exact absurd hfresh hold
    | created image _ himage hok _ hempty hstate =>
      subst himage
      have hw : WellKeyed image.state := by
        rw [hempty]
        exact .empty _ _
      exact ⟨_, .of_image hsynced (hstate ▸ hw.blur _) hw hok (by rw [hstate, core_clearVolatile])⟩
  obtain ⟨records, hfirst⟩ := hfirst
  exact (hfirst.run (hoptions ▸ hlimits) (hoptions ▸ htidy) hrun).2

end Run

/-- A side is attached at the second slot of a port. -/
def sampleSecondSlot : Evidence :=
  sampleEvidence 1 (.attach
    { subject := ⟨.fromParts 0 9, 0⟩, objectIncarnation := 1, port := ⟨.fromParts 0 2, 0⟩, slot := 1 })

def sampleSecondSlotKey : ClaimKey := .subject ⟨.fromParts 0 9, 0⟩ sampleSecondSlot.key

/-- A session opens, and the attachment is ingested. -/
def sampleSecondSlotRequests : List Request :=
  [.openSession { id := .fromParts 0 1 } 1 1 2 .written, .ingest sampleSecondSlot 3 .written]

/-- The log the requests leave: the image of the empty state, the session and the attachment. -/
def sampleSecondSlotLog : List StoreRecord :=
  [⟨.stateSnapshot, (Encoder.run (encodeState (clearVolatile
      { id := ((initial sampleStore 0).mintId ⟨1, 2⟩).state.id, openedAt := 0 }) {})).take⟩,
    sessionRecord { id := .fromParts 0 1 } 1 1 {}, evidenceRecord sampleSecondSlot 3 {}]

theorem exists_sampleSecondSlot : ∃ (r : Registry) (es : List Evidence) (store : Store)
    (header : List UInt8), r.ReachedBy sampleStore sampleSecondSlotRequests es ∧
    (r.state.winner sampleSecondSlotKey).isSome = true ∧
    r.store = some store ∧ sampleStore.store = some store.options ∧
    store.Holds header sampleSecondSlotLog [] := by
  obtain ⟨r₀, r, hopen, hrun⟩ := exists_of_isOk_run (show ((Registry.open sampleStore none
    ⟨0, ⟨1, 2⟩, .written⟩).2 >>= fun r => r.run sampleSecondSlotRequests).isOk = true by decide +kernel)
  have hrecorded : ((Registry.open sampleStore none ⟨0, ⟨1, 2⟩, .written⟩).2 >>= fun r =>
      r.run sampleSecondSlotRequests).toOption.any
        (fun r => (r.state.winner sampleSecondSlotKey).isSome) = true := by decide +kernel
  rw [hopen] at hrecorded
  simp only [bind, Except.bind, hrun, Except.toOption, Option.any_some] at hrecorded
  have hnone : ∀ env, Request.reopen env ∉ sampleSecondSlotRequests := by
    simp [sampleSecondSlotRequests]
  have hreached : r.ReachedBy sampleStore sampleSecondSlotRequests _ :=
    ⟨orderly_of_not_mem hnone, none, _, r₀, rfl, hopen, hrun, rfl⟩
  obtain ⟨hoptions, records, hsynced, horigin⟩ := Synced.of_open rfl hopen
  cases horigin with
  | replayed report r₁ hold => exact absurd rfl hold
  | created image _ himage hok hlimits hempty hstate hminted =>
    have hblank : ∀ k, r₀.state.winner k = none := by
      intro k
      rw [hstate, winner_eq_of_core (core_clearVolatile _), hempty, winner_empty]
    have hrecord : image.imageRecord = sampleSecondSlotLog.head (by simp [sampleSecondSlotLog]) := by
      unfold imageRecord imageOf
      rw [hempty, hlimits, hminted]
      rfl
    obtain rfl : ((r₀.openSession { id := .fromParts 0 1 } 1 1 2 .written).1.ingest sampleSecondSlot 3
      .written).1 = r := Except.ok.inj hrun
    have hlimits₀ : r₀.limits = {} := by
      rw [hsynced.config.limits, hoptions]
      rfl
    -- Each request writes its record, or the attachment would not be there.
    obtain ⟨records₁, hsynced₁, hextends₁⟩ := @Synced.step _ _ _
      (.openSession { id := .fromParts 0 1 } 1 1 2 .written) hsynced (by simp) (fun _ _ => trivial) rfl
    obtain ⟨records₂, hsynced₂, hextends₂⟩ := @Synced.step _ _ _ (.ingest sampleSecondSlot 3 .written)
      hsynced₁ (by simp) (fun _ _ => trivial) rfl
    cases hextends₁ with
    | imaged hq => cases hq
    | same hcore =>
      cases hextends₂ with
      | imaged hq => cases hq
      | same hcore₁ =>
        rw [winner_eq_of_core (hcore₁.trans hcore), hblank] at hrecorded
        exact absurd hrecorded (by simp)
      | recorded h =>
        cases h with
        | ingested hacc =>
          obtain ⟨-, m, hm, -⟩ := of_isAccepted_judge hacc
          have hsession := (admitRecord_eq_ok hm).2.2
          rw [(SameWinners.of_core hcore).sessions, hstate, hempty, clearVolatile_empty] at hsession
          exact absurd hsession (by simp)
    | recorded h =>
      cases h with
      | opened _ _ hstate₁ =>
        cases hextends₂ with
        | imaged hq => cases hq
        | same hcore₁ =>
          rw [winner_eq_of_core hcore₁, hstate₁, RegistryState.winner, openState_lookup] at hrecorded
          exact absurd (hrecorded.symm.trans (congrArg Option.isSome (hblank _))) (by simp)
        | recorded h =>
          cases h with
          | ingested =>
            have hcfg := (r₀.openSession_spec { id := .fromParts 0 1 } 1 1 2 .written).1
            rw [hcfg.limits, hlimits₀, himage, hrecord] at hsynced₂
            obtain ⟨store, header, hs, hstore, hholds⟩ := hsynced₂.logged
            rw [(Does.ingested _ _ _).frame.1.options, hcfg.options, hoptions] at hstore
            exact ⟨_, _, store, header, hreached, hrecorded, hs, hstore, hholds⟩

/-- The limits are the same, but for the number of attachments at a port. -/
def sampleWithAttachments (n : UInt32) : RegistryOptions :=
  { sampleStore with limits := { maxPortSimultaneousAttachments := n } }

/-- What the log opens to under such limits. -/
theorem exists_open_sampleSecondSlot (n : UInt32) (found : Bool)
    (hcheck : checkOptions (sampleWithAttachments n) = .ok ())
    (hreplay : ((blank (sampleWithAttachments n) 0 {}).replayAll sampleSecondSlotLog).toOption.any
      (fun r => (r.state.winner sampleSecondSlotKey).isSome == found) = true) :
    ∃ (r r' : Registry) (es : List Evidence), r.ReachedBy sampleStore sampleSecondSlotRequests es ∧
      (r.state.winner sampleSecondSlotKey).isSome = true ∧
      (Registry.open (sampleWithAttachments n) r.disk ⟨9, ⟨3, 4⟩, .written⟩).2 = .ok r' ∧
      (r'.state.winner sampleSecondSlotKey).isSome = found := by
  obtain ⟨r, es, store, header, hreached, hsome, hs, hstore, hholds⟩ := exists_sampleSecondSlot
  cases hr₀ : (blank (sampleWithAttachments n) 0 {}).replayAll sampleSecondSlotLog with
  | error error =>
    rw [hr₀] at hreplay
    exact absurd hreplay (by simp [Except.toOption])
  | ok r₀ =>
    rw [hr₀] at hreplay
    obtain ⟨r₁, store', halike, -, -, hopen⟩ := open_of_replays
      (show (sampleWithAttachments n).store = some store.options from hstore) hholds hcheck hr₀
      (fun _ hnil => absurd hnil (show ¬ sampleStore.id.isNil = false by decide)) ⟨9, ⟨3, 4⟩, .written⟩
    refine ⟨r, _, es, hreached, hsome, by rw [Registry.disk, hs, Option.map_some, hopen], ?_⟩
    have hcore := (alike_begun halike.indexed' (some store') (r₁.mintId ⟨3, 4⟩).state.id).core
    rw [winner_eq_of_core hcore.symm, winner_eq_of_core halike.core]
    simpa [Except.toOption] using hreplay

theorem tidy_sampleSecondSlot : ∀ q ∈ sampleSecondSlotRequests, q.Tidy sampleStore := by
  simp [sampleSecondSlotRequests, Request.Tidy, Store.AppendIo.Tidy]

end Registry

end CableRegistry
