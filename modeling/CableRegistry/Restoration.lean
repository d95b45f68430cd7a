import CableRegistry.Reachable

/-!
# Reopening a log restores the registry

`Restorable r records id` says that the log of a registry replays, whatever the clock, and
which identity it replays to.  A log that was just opened is restorable
(`Restorable.of_origin`), and so is one to which sessions and evidence of the declared
vocabulary were added (`Restorable.step`).

The main result is `reopen_restores`: after any run of sessions and evidence, reopening the
log succeeds and restores the claim maps, the sources, the session keys and the canonical
snapshot.
-/

open Std

namespace CableRegistry

variable {report : RecoveryReport} {r r' : Registry} {options : RegistryOptions}
  {record : StoreRecord}

namespace Registry

/-! ### Logs that can be replayed -/

/-- A record other than a state image leaves the identity alone. -/
theorem replayRecord_id {r r' : Registry} {record : StoreRecord}
    (hkind : record.kind ≠ .stateSnapshot) (h : r.replayRecord record = .ok r') :
    r'.state.id = r.state.id := by
  rcases replayRecord_cases h with ⟨hs, -⟩ | ⟨-, ⟨d, i, t, rfl⟩ | ⟨key, rfl⟩ | ⟨e, t, rfl⟩⟩
  · exact absurd hs hkind
  · rfl
  · show (applySessionClose r.state key).id = r.state.id
    unfold applySessionClose
    split <;> rfl
  · exact (ingestLocked_frame r e t false false .written).1.id

/-- Where two registries replay the same records, they end with the same identity if they
began with the same one. -/
theorem replayAll_id (records : List StoreRecord) {r₁ r₁' : Registry}
    (hlimits : r'.limits = r.limits) (hid : r'.state.id = r.state.id)
    (h : r.replayAll records = .ok r₁) (h' : r'.replayAll records = .ok r₁') :
    r₁'.state.id = r₁.state.id := by
  induction records generalizing r r' with
  | nil =>
    have hr : r = r₁ := Except.ok.inj h
    have hr' : r' = r₁' := Except.ok.inj h'
    rw [← hr, ← hr', hid]
  | cons record records ih =>
    unfold replayAll at h h' ih
    rw [List.foldlM_cons] at h h'
    cases hstep : r.replayRecord record with
    | error error =>
      rw [hstep] at h
      exact absurd h (by simp [bind, Except.bind])
    | ok r₂ =>
      cases hstep' : r'.replayRecord record with
      | error error =>
        rw [hstep'] at h'
        exact absurd h' (by simp [bind, Except.bind])
      | ok r₂' =>
        rw [hstep] at h
        rw [hstep'] at h'
        have hl := (replayRecord_config hstep).1.limits
        have hl' := (replayRecord_config hstep').1.limits
        refine ih (hl'.trans (hlimits.trans hl.symm)) ?_ h h'
        by_cases hkind : record.kind = .stateSnapshot
        · unfold replayRecord at hstep hstep'
          rw [if_pos hkind] at hstep hstep'
          rw [hlimits] at hstep'
          split at hstep
          · exact absurd hstep (by simp)
          · rename_i loaded hdecode
            rw [hdecode] at hstep'
            rw [← Except.ok.inj hstep, ← Except.ok.inj hstep']
        · rw [replayRecord_id hkind hstep, replayRecord_id hkind hstep', hid]

/-- The log of the registry replays, to a state of the given identity, which is the one the
options ask for and the one the registry has, if it is one at all. -/
structure Restorable (r : Registry) (records : List StoreRecord) (id : RegistryId) : Prop where
  replay : ∀ now report, ∃ r', (blank r.options now report).replayAll records = .ok r' ∧
    r'.state.id = id
  owned : id.isNil = false → r.options.id.isNil = false → id = r.options.id
  live : id.isNil = false → r.state.id = id
  configured : id.isNil = true → r.options.id.isNil = false → r.state.id = r.options.id

section Restorable

variable {r r₁ : Registry} {records : List StoreRecord} {id : RegistryId}

theorem Restorable.same (h : Restorable r records id) (hoptions : r₁.options = r.options)
    (hid : r₁.state.id = r.state.id) : Restorable r₁ records id := by
  refine ⟨?_, ?_, ?_, ?_⟩
  · rw [hoptions]
    exact h.replay
  · rw [hoptions]
    exact h.owned
  · rw [hid]
    exact h.live
  · rw [hoptions, hid]
    exact h.configured

/-- One more record that replays and is not a state image. -/
theorem Restorable.append (h : Restorable r records id) (hoptions : r₁.options = r.options)
    (hid : r₁.state.id = r.state.id) {record : StoreRecord} (hkind : record.kind ≠ .stateSnapshot)
    (hok : ∀ r₀, (∃ now report, (blank r.options now report).replayAll records = .ok r₀) →
      ∃ r', r₀.replayRecord record = .ok r') : Restorable r₁ (records ++ [record]) id := by
  have hsame := h.same hoptions hid
  refine ⟨?_, hsame.owned, hsame.live, hsame.configured⟩
  intro now report
  rw [hoptions]
  obtain ⟨r₀, hr₀, hid₀⟩ := h.replay now report
  obtain ⟨r', hr'⟩ := hok r₀ ⟨now, report, hr₀⟩
  refine ⟨r', ?_, (replayRecord_id hkind hr').trans hid₀⟩
  rw [replayAll_concat, hr₀]
  exact hr'

end Restorable

/-! ### A new log -/

theorem imageable_empty (limits : Limits) (id : RegistryId) (openedAt : Timestamp) :
    (clearVolatile { id := id, openedAt := openedAt }).ImageCounts limits ∧
      (clearVolatile { id := id, openedAt := openedAt }).ImageContents limits := by
  constructor
  · constructor <;> simp [clearVolatile, RegistryState.blur, CountsWithin]
  · constructor <;>
      simp [clearVolatile, RegistryState.blur, EntriesReadable, ExtTreeMap.toList_map]

/-- The image of an empty state replays. -/
theorem replayRecord_image_empty {id : RegistryId} {openedAt : Timestamp}
    (hok : r.imageOf.ok = true) (hlimits : r'.limits = r.limits)
    (hempty : r.state = { id := id, openedAt := openedAt }) :
    r'.replayRecord r.imageRecord =
      .ok { r' with state := clearVolatile r.state, labelIndex := none } := by
  have hw : WellKeyed r.state := by
    rw [hempty]
    exact .empty id openedAt
  have himage := imageable_empty r.limits id openedAt
  rw [← hempty] at himage
  unfold replayRecord imageRecord
  rw [if_pos rfl, hlimits, (Decoder.whole_eq_some_iff (reads_imageOf hw hok)).mpr himage]

theorem isNil_mintId (r : Registry) (draw : Id128) : (r.mintId draw).state.id.isNil = false := by
  rw [mintId_id]
  split
  · split
    · exact isNil_randomId128 draw
    · rename_i h
      exact Bool.eq_false_of_not_eq_true h
  · rename_i h
    exact Bool.eq_false_of_not_eq_true h

/-- A registry that has just been opened has a log that replays; and the log holds the
identity of the registry, or the options do, unless the identity had to be drawn for a log
that had none. -/
theorem Restorable.of_origin {disk : Option (List UInt8)} {env : OpenEnv}
    {records : List StoreRecord} (hoptions : r.options = options)
    (h : Origin options disk env r records) :
    ∃ id, Restorable r records id ∧
      (disk.getD [] = [] ∨ options.id.isNil = false ∨ r.state.id ≠ ⟨randomId128 env.draw⟩ →
        id.isNil = false ∨ options.id.isNil = false) := by
  subst hoptions
  cases h with
  | replayed report r₀ hold hreplay howned hid =>
    obtain ⟨hcfg, -⟩ := replayAll_config records hreplay
    have hopt : r₀.options = r.options := hcfg.options
    rw [mintId_id, hopt] at hid
    refine ⟨r₀.state.id, ⟨?_, howned, ?_, ?_⟩, ?_⟩
    · intro now report'
      have hboth := (alike_blank r.options env.now now report report').replayAll records
      rw [hreplay] at hboth
      cases hr : (blank r.options now report').replayAll records with
      | error error =>
        rw [hr] at hboth
        cases hboth
      | ok r' =>
        refine ⟨r', rfl, ?_⟩
        exact replayAll_id records
          (show (blank r.options now report').limits = (blank r.options env.now report).limits from rfl)
          rfl hreplay hr
    · intro hnil
      rw [hid, hnil]
      rfl
    · intro hnil hopt'
      rw [hid, hnil, hopt']
      rfl
    · intro hcase
      cases hnil : r₀.state.id.isNil with
      | false => exact .inl rfl
      | true =>
        refine .inr ?_
        rw [hnil] at hid
        cases hopt' : r.options.id.isNil with
        | false => rfl
        | true =>
          rw [hopt'] at hid hcase
          rcases hcase with hfresh | hfalse | hne
          · exact absurd hfresh hold
          · exact hfalse
          · exact absurd hid hne
  | created r₀ hfresh himage hok hlimits hempty hstate hminted =>
    have hnil : r.state.id.isNil = false := by
      rw [hminted]
      exact isNil_mintId _ _
    refine ⟨r.state.id, ⟨?_, ?_, fun _ => rfl, ?_⟩, fun _ => .inl hnil⟩
    · intro now report
      have hl : (blank r.options now report).limits = r₀.limits := hlimits.symm
      refine ⟨{ blank r.options now report with
        state := clearVolatile r₀.state, labelIndex := none }, ?_, ?_⟩
      · rw [himage, replayAll_singleton, replayRecord_image_empty hok hl hempty]
      · show (clearVolatile r₀.state).id = r.state.id
        rw [hempty]
        rfl
    · intro _ hopt
      rw [hminted, mintId_id]
      show (if r.options.id.isNil then _ else r.options.id) = r.options.id
      rw [hopt]
      rfl
    · intro hnil'
      rw [hnil] at hnil'
      exact absurd hnil' (by simp)

/-! ### Runs of sessions and evidence -/

end Registry

/-- A session that opens or closes or evidence of the declared vocabulary, with writes that
succeed or leave nothing behind. -/
def Request.Recording (options : RegistryOptions) (q : Request) : Prop :=
  q.Tidy options ∧
    match q with
    | .openSession _ _ _ _ _ | .closeSession _ _ => True
    | .ingest e _ _ => e.payload.undeclaredPortVocabulary = false
    | .compact _ | .reopen _ => False

namespace Registry

section Run

variable {r r₁ : Registry} {records : List StoreRecord} {id : RegistryId}

theorem Synced.limits_replayed (h : Synced r records) {now : Timestamp} {r₀ : Registry}
    (hr : (blank r.options now report).replayAll records = .ok r₀) :
    r₀.limits = r.limits := by
  obtain ⟨hcfg, -⟩ := replayAll_config records hr
  rw [hcfg.limits, h.config.limits]
  exact (configured_blank r.options now report).limits

/-- **A request of the kind leaves a log that replays.** -/
theorem Restorable.step (hs : Synced r records) (h : Restorable r records id) {q : Request}
    (hq : q.Recording r.options) (hstep : r.step q = .ok r₁) :
    r₁.options = r.options ∧ ∃ records', Synced r₁ records' ∧ Restorable r₁ records' id := by
  obtain ⟨htidy, hkind⟩ := hq
  have hdoes : Does r q r₁ := does (by rintro env rfl; exact hkind) hstep
  obtain ⟨hcfg, hid⟩ := hdoes.frame
  refine ⟨hcfg.options, ?_⟩
  obtain ⟨records', hsynced, hextends⟩ := hs.step (by rintro io rfl; exact hkind.elim) htidy hstep
  refine ⟨records', hsynced, ?_⟩
  cases hextends with
  | same => exact h.same hcfg.options hid
  | imaged hq =>
    subst hq
    exact hkind.elim
  | recorded hrecorded =>
    cases hrecorded with
    | opened hadm hok =>
      refine h.append hcfg.options hid (show RecordKind.sessionOpen ≠ _ by decide) ?_
      rintro r₀ ⟨now, report, hr⟩
      rw [← hs.limits_replayed hr] at hok ⊢
      exact ⟨_, replayRecord_session hadm.named hadm.positive hadm.declared hok⟩
    | closed =>
      exact h.append hcfg.options hid (show RecordKind.sessionClose ≠ _ by decide) fun r₀ _ =>
        ⟨_, replayRecord_close _⟩
    | ingested hacc hok =>
      refine h.append hcfg.options hid (show RecordKind.evidence ≠ _ by decide) ?_
      rintro r₀ ⟨now, report, hr⟩
      obtain ⟨-, m, hm, -⟩ := of_isAccepted_judge hacc
      have hshape := (admitRecord_eq_ok hm).1
      rw [← hs.limits_replayed hr] at hshape hok ⊢
      exact ⟨_, (replayRecord_evidence hshape hok).trans (if_neg (by simpa using hkind))⟩

theorem Restorable.run (hs : Synced r records) (h : Restorable r records id) (requests : List Request)
    (hrequests : ∀ q ∈ requests, q.Recording r.options) (hrun : r.run requests = .ok r₁) :
    r₁.options = r.options ∧ ∃ records', Synced r₁ records' ∧ Restorable r₁ records' id := by
  induction requests generalizing r records with
  | nil =>
    obtain rfl : r = r₁ := Except.ok.inj hrun
    exact ⟨rfl, records, hs, h⟩
  | cons q requests ih =>
    obtain ⟨r₂, hstep, hrun⟩ := foldlM_cons_eq_ok.mp hrun
    obtain ⟨hoptions, records', hs', h'⟩ := h.step hs (hrequests q List.mem_cons_self) hstep
    obtain ⟨hoptions', hrest⟩ := ih hs' h' (fun q' hq' => by
      rw [hoptions]
      exact hrequests q' (List.mem_cons_of_mem q hq')) hrun
    exact ⟨hoptions'.trans hoptions, hrest⟩

/-- **A log that replays can be opened**, under any options that name its store.  When the replay
took place and what the open reports does not matter. -/
theorem open_of_replays {store : Store} {header : List UInt8}
    (hstore : options.store = some store.options) (hholds : store.Holds header records [])
    (hcheck : checkOptions options = .ok ()) {now : Timestamp} {r₀ : Registry}
    (hreplay : (blank options now report).replayAll records = .ok r₀)
    (howned : r₀.state.id.isNil = false → options.id.isNil = false → r₀.state.id = options.id)
    (env : OpenEnv) :
    ∃ r₁ store', Alike r₀ r₁ ∧ r₁.state.id = r₀.state.id ∧ r₁.options = options ∧
      (Registry.open options (some store.file) env).2 =
        .ok (begun r₁ (some store') (r₁.mintId env.draw).state.id) := by
  obtain ⟨report', ⟨hcreated, -⟩, hlog⟩ := Store.open_log hholds.usable hholds.headerOk hholds.fits
  have hheld := Store.holds_ofScan hholds.usable hholds.headerOk hholds.fits none
  have hboth := (alike_blank options now env.now report report').replayAll records
  rw [hreplay] at hboth
  cases hr₁ : (blank options env.now report').replayAll records with
  | error error =>
    rw [hr₁] at hboth
    cases hboth
  | ok r₁ =>
    rw [hr₁] at hboth
    cases hboth with
    | ok halike =>
      have hid : r₁.state.id = r₀.state.id := replayAll_id records
        (show (blank options env.now report').limits = (blank options now report).limits from rfl)
        rfl hreplay hr₁
      have hblank : ({ initial options env.now with recovery := report' } : Registry) =
          blank options env.now report' := rfl
      have hsame : (!r₁.state.id.isNil && !options.id.isNil && r₁.state.id != options.id) = false := by
        rw [hid]
        cases hnil : r₀.state.id.isNil with
        | true => rfl
        | false =>
          cases hnil' : options.id.isNil with
          | true => rfl
          | false =>
            rw [howned hnil hnil']
            simp
      refine ⟨r₁, { Store.ofScan store.options (header ++ Store.frames store.options records)
        ⟨records, Store.positionAfter store.options records,
          (Store.frames store.options records).length, none⟩ with replayed := true }, halike, hid,
        (replayAll_config records hr₁).1.options, ?_⟩
      unfold Registry.open
      rw [hcheck, hstore, show store.file = header ++ Store.frames store.options records by
        rw [hholds.file, List.append_nil]]
      dsimp only
      rw [hlog]
      dsimp only
      rw [hblank, hheld.visitRecords replayVisit rfl rfl, (visitAll_replayVisit records _ r₁).mpr hr₁]
      dsimp only
      rw [hsame, hcreated, ← clearLifetime_mintId]
      rfl

/-- A log that replays can be opened, and the registry is the same one as before if the log
or the options hold its identity. -/
theorem Restorable.reopen (hs : Synced r records) (h : Restorable r records id)
    (hcheck : checkOptions r.options = .ok ()) (env : OpenEnv) :
    ∃ r', (Registry.open r.options r.disk env).2 = .ok r' ∧
      (id.isNil = false ∨ r.options.id.isNil = false → r'.state.id = r.state.id) := by
  obtain ⟨store, header, hstore, hoptions, hholds⟩ := hs.logged
  obtain ⟨r₀, hr₀, hid⟩ := h.replay 0 {}
  obtain ⟨r₁, store', -, hid₁, hoptions₁, hopen⟩ :=
    open_of_replays hoptions hholds hcheck hr₀ (hid ▸ h.owned) env
  refine ⟨_, by rw [Registry.disk, hstore, Option.map_some, hopen], ?_⟩
  intro hcase
  show (r₁.mintId env.draw).state.id = r.state.id
  rw [mintId_id, hoptions₁, hid₁, hid]
  cases hnil : id.isNil with
  | false =>
    rw [h.live hnil]
    rfl
  | true =>
    have hnil' : r.options.id.isNil = false := hcase.resolve_left (by simp [hnil])
    rw [h.configured hnil hnil', hnil']
    rfl

end Run

/-! ### The theorem -/

/-- A snapshot shows the core of a state and its identity. -/
theorem buildSnapshot_of_core {s s' : RegistryState} (h : s'.core = s.core) (limits : Limits) :
    buildSnapshot s' limits = { buildSnapshot s limits with registry := s'.id } := by
  have hcore : ∀ s : RegistryState,
      buildSnapshot s limits = { buildSnapshot s.core limits with registry := s.id } := by
    intro s
    have hs := buildSnapshot_identity (s.blur coreBlur) {} 0 limits
    rw [buildSnapshot_blur] at hs
    rw [show buildSnapshot s.core limits = _ from hs]
    rfl
  rw [hcore s', h, hcore s]

/-- **Replaying the log restores the registry.**  A registry with a store, opened on any
log, takes any run of sessions and evidence in which every append succeeds (or at least
leaves nothing behind) and no port capability is outside the declared vocabulary.  Then
reopening the log succeeds.  The reopened state has the claim maps of the live one with
every lifetime flag cleared, the same sources and the same session keys; only the identity,
the time it was opened and the counters of the sessions may differ.  The canonical
snapshots are the same bytes, the registry identity included unless it was drawn at random
for a log that held none. -/
theorem reopen_restores {options : RegistryOptions} {storeOptions : StoreOptions}
    (hstore : options.store = some storeOptions) {disk : Option (List UInt8)} {env env' : OpenEnv}
    {r₀ r : Registry} (hopen : (Registry.open options disk env).2 = .ok r₀) {requests : List Request}
    (hrequests : ∀ q ∈ requests, q.Recording options) (hrun : r₀.run requests = .ok r) :
    ∃ r', (Registry.open options r.disk env').2 = .ok r' ∧
      r'.state = (clearVolatile r.state).reframe r'.state.id r'.state.openedAt r'.state.sessions ∧
      (∀ key, r'.state.sessions.contains key = r.state.sessions.contains key) ∧
      (∀ limits, encodeSnapshotBytes r'.snapshot false limits =
        encodeSnapshotBytes r.snapshot false limits) ∧
      (disk.getD [] = [] ∨ options.id.isNil = false ∨ r₀.state.id ≠ ⟨randomId128 env.draw⟩ →
        r'.snapshot.encode = r.snapshot.encode) := by
  have hcheck := checked_of_open hopen
  obtain ⟨hoptions, records, hsynced, horigin⟩ := Synced.of_open hstore hopen
  obtain ⟨id, hrestorable, hidentity⟩ := Restorable.of_origin hoptions horigin
  rw [← hoptions] at hrequests
  obtain ⟨hoptions', records', hsynced', hrestorable'⟩ :=
    hrestorable.run hsynced requests hrequests hrun
  have hsame : r.options = options := hoptions'.trans hoptions
  rw [← hsame] at hcheck hidentity ⊢
  obtain ⟨r', hr', hid⟩ := hrestorable'.reopen hsynced' hcheck env'
  obtain ⟨hopt, hback, s₀, hs₀, hcore₀⟩ := hsynced'.reopen hr'
  have hcore : r'.state.core = r.state.core := by
    rw [hs₀, core_clearVolatile, hcore₀]
  have hlimits : r'.limits = r.limits := by
    rw [hback.config.limits, hopt, hsynced'.config.limits]
  have hsnapshot : r'.snapshot = { r.snapshot with registry := r'.state.id } := by
    unfold Registry.snapshot
    rw [hlimits]
    exact buildSnapshot_of_core hcore r.limits
  refine ⟨r', hr', ?_, ?_, ?_, ?_⟩
  · rw [hs₀]
    exact clearVolatile_of_core hcore₀
  · intro key
    rw [← contains_core_sessions, hcore, contains_core_sessions]
  · intro limits
    rw [hsnapshot]
    rfl
  · intro hcase
    have hregistry : r.snapshot.registry = r.state.id := rfl
    rw [hsnapshot, hid (hidentity hcase), ← hregistry]

def sampleStore : RegistryOptions := { store := some { path := "registry.log" } }

theorem reopen_restores_sample :
    ∃ r₀ r r', (Registry.open sampleStore none ⟨0, ⟨1, 2⟩, .written⟩).2 = .ok r₀ ∧
      r₀.run sampleRequests = .ok r ∧
      (Registry.open sampleStore r.disk ⟨9, ⟨3, 4⟩, .written⟩).2 = .ok r' ∧
      r'.snapshot.encode = r.snapshot.encode := by
  obtain ⟨r₀, r, hopen, hrun⟩ := exists_of_isOk_run (show ((Registry.open sampleStore none
    ⟨0, ⟨1, 2⟩, .written⟩).2 >>= fun r => r.run sampleRequests).isOk = true by decide +kernel)
  have hrequests : ∀ q ∈ sampleRequests, q.Recording sampleStore := by
    simp [sampleRequests, Request.Recording, Request.Tidy, Store.AppendIo.Tidy,
      EvidencePayload.undeclaredPortVocabulary, sampleRegistration, sampleAttach, sampleEvidence]
  obtain ⟨r', hr', -, -, -, hsnapshot⟩ := reopen_restores rfl hopen hrequests hrun
  exact ⟨r₀, r, r', hopen, hrun, hr', hsnapshot (.inl rfl)⟩

end Registry

end CableRegistry
