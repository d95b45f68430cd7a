import CableRegistry.Replay

/-!
# A live registry and its log

`Synced r records` ties a registry to its log: the file holds exactly the frames of
`records`, and whatever they replay to is like `r`.  Every successful open establishes it
(`Synced.of_open`), and so long as a failed write leaves no bytes behind every operation
keeps it (`Synced.step`).
Reopening then gives back the core of the live state (`Synced.reopen`).
-/

open Std

namespace CableRegistry

variable {records : List StoreRecord} {header : List UInt8} {report : RecoveryReport}
  {r' r₀ r₁ : Registry} {store : Store} {io : Store.AppendIo} {storeOptions : StoreOptions}
  {record : StoreRecord}

/-- A request whose writes, when they fail, leave nothing behind. -/
def Request.Tidy (options : RegistryOptions) : Request → Prop
  | .openSession _ _ _ _ io | .closeSession _ io | .ingest _ _ io =>
    ∀ storeOptions, options.store = some storeOptions → io.Tidy storeOptions.fsyncOnCommit
  | .compact io => io.Tidy
  | .reopen _ => True

namespace Registry

/-! ### The invariant -/

/-- The registry that an open starts to replay into. -/
def blank (options : RegistryOptions) (now : Timestamp) (report : RecoveryReport) : Registry :=
  { initial options now with recovery := report }

/-- The registry is configured by its options and has not been closed. -/
structure Configured (r : Registry) : Prop where
  limits : r.limits = r.options.limits
  historyPerKey : r.historyPerKey = min r.options.historyPerKey r.options.limits.maxHistoryPerKey
  closed : r.closed = false

theorem Configured.of_same {r : Registry} (h : r.Configured) (hcfg : SameConfig r r₁) :
    r₁.Configured := by
  refine ⟨?_, ?_, hcfg.closed.trans h.closed⟩
  · rw [hcfg.limits, hcfg.options]
    exact h.limits
  · rw [hcfg.historyPerKey, hcfg.options]
    exact h.historyPerKey

theorem configured_blank (options : RegistryOptions) (now : Timestamp) (report : RecoveryReport) :
    (blank options now report).Configured :=
  ⟨rfl, rfl, rfl⟩

theorem coveredBy_none (s : RegistryState) : CoveredBy s none := by
  intro i hi
  cases hi

/-! ### What is written -/

/-- What a request did, where its record was written. -/
inductive Recorded (r : Registry) : Request → StoreRecord → Registry → Prop
  | opened {d : SourceDescriptor} {i : Incarnation} {t t' : Timestamp} {io : Store.AppendIo}
      {r₁ : Registry} (admitted : Admissible r.state r.limits d i)
      (encoded : (Encoder.run (encodeSessionOpen d i t r.limits)).ok = true)
      (state : r₁.state = openState r.state d i t') :
      Recorded r (.openSession d i t t' io) (sessionRecord d i t r.limits) r₁
  | closed {key : SourceIncarnationKey} {io : Store.AppendIo} {r₁ : Registry}
      (state : r₁.state = applySessionClose r.state key) :
      Recorded r (.closeSession key io) (closeRecord key) r₁
  | ingested {e : Evidence} {t : Timestamp} {io : Store.AppendIo}
      (accepted : (r.judge e t true).isAccepted = true)
      (encoded : (Encoder.run (encodeEnvelope e t r.limits)).ok = true)
      (disposition : (r.ingest e t io).2.disposition = r.judge e t true) :
      Recorded r (.ingest e t io) (evidenceRecord e t r.limits) (r.ingest e t io).1

/-- What a request of sessions or evidence does to the store: nothing, and then nothing to the core
either, or it appends a record. -/
inductive Logs (r : Registry) (store : Store) (q : Request) (r₁ : Registry) : Prop
  | quiet (stored : r₁.store = some store) (core : r₁.state.core = r.state.core)
  | appended (record : StoreRecord) (io : Store.AppendIo) (kind : record.kind ≠ .stateSnapshot)
      (length : record.payload.length + 56 < 2 ^ 32)
      (tidy : q.Tidy r.options → io.Tidy store.options.fsyncOnCommit)
      (stored : r₁.store = some (store.append record io).1)
      (done : (store.append record io).2 = .ok () ∧ Recorded r q record r₁ ∨
        (∃ error, (store.append record io).2 = .error error) ∧ r₁.state.core = r.state.core)

/-- The records of a log after a request. -/
inductive Extends (r : Registry) (q : Request) (r₁ : Registry) (records : List StoreRecord) :
    List StoreRecord → Prop
  | same (core : r₁.state.core = r.state.core) : Extends r q r₁ records records
  | recorded {record : StoreRecord} (h : Recorded r q record r₁) :
      Extends r q r₁ records (records ++ [record])
  | imaged {io : Store.RewriteIo} (compact : q = .compact io) (encoded : r.imageOf.ok = true)
      (state : r₁.state = r.state) :
      Extends r q r₁ records [r.imageRecord]

theorem length_payload_lt (kind : RecordKind) (ws : List Write) :
    (⟨kind, (Encoder.run ws).take⟩ : StoreRecord).payload.length + 56 < 2 ^ 32 := by
  have h := length_take_run ws
  have hmax : Encoder.kMaxEncodedBytes + 56 < 2 ^ 32 := by decide
  exact Nat.lt_of_le_of_lt (Nat.add_le_add_right h 56) hmax

section Logs

variable {r : Registry} (hs : r.store = some store) (hoptions : r.options.store = some store.options)

include hs hoptions

theorem logs_openSession (d : SourceDescriptor) (i : Incarnation) (t t' : Timestamp)
    (io : Store.AppendIo) :
    Logs r store (.openSession d i t t' io) (r.openSession d i t t' io).1 := by
  have happended := fun r₁ => @Logs.appended r store (.openSession d i t t' io) r₁
    (sessionRecord d i t r.limits) io (show RecordKind.sessionOpen ≠ _ by decide)
    (length_payload_lt _ _) (fun h => h _ hoptions)
  unfold openSession
  cases ha : r.admitSession d i with
  | error refusal => exact .quiet hs rfl
  | ok _ =>
    dsimp only
    unfold persistSession
    cases hok : (Encoder.run (encodeSessionOpen d i t r.limits)).ok with
    | false => exact .quiet (by simp [hs, hok]) (by simp [hs, hok])
    | true =>
      simp only [hs, hok, Option.isNone_some, Bool.false_eq_true, if_false, Bool.not_true, appendRecord]
      rw [show (⟨.sessionOpen, (Encoder.run (encodeSessionOpen d i t r.limits)).take⟩ : StoreRecord) =
        sessionRecord d i t r.limits from rfl]
      cases happ : (store.append (sessionRecord d i t r.limits) io).2 with
      | ok _ => exact happended _ rfl (.inl ⟨happ, .opened (admitSession_eq_ok ha) hok rfl⟩)
      | error error => exact happended _ rfl (.inr ⟨⟨error, happ⟩, rfl⟩)

theorem logs_closeSession (key : SourceIncarnationKey) (io : Store.AppendIo) :
    Logs r store (.closeSession key io) (r.closeSession key io).1 := by
  have happended := fun r₁ => @Logs.appended r store (.closeSession key io) r₁
    (closeRecord key) io (show RecordKind.sessionClose ≠ _ by decide) (length_payload_lt _ _)
    (fun h => h _ hoptions)
  unfold closeSession
  split
  · exact .quiet hs rfl
  split
  · exact .quiet hs rfl
  simp only [hs, appendRecord]
  rw [show (⟨.sessionClose, (Encoder.run (encodeSessionClose key)).take⟩ : StoreRecord) =
    closeRecord key from rfl]
  cases happ : (store.append (closeRecord key) io).2 with
  | ok _ => exact happended _ rfl (.inl ⟨happ, .closed rfl⟩)
  | error error => exact happended _ rfl (.inr ⟨⟨error, happ⟩, rfl⟩)

theorem logs_ingest (e : Evidence) (t : Timestamp) (io : Store.AppendIo) :
    Logs r store (.ingest e t io) (r.ingest e t io).1 := by
  rcases ingest_cases hs e t io with ⟨hstore, hcore⟩ | ⟨hacc, hok, hstore, hcase⟩
  · exact .quiet (hstore.trans hs) hcore
  · exact .appended (evidenceRecord e t r.limits) io (show RecordKind.evidence ≠ _ by decide)
      (length_payload_lt _ _) (fun h => h _ hoptions) hstore (hcase.imp_left fun h => ⟨h.1, .ingested hacc hok h.2⟩)

end Logs

/-- The records are the log of the registry, and they replay to a registry like it. -/
structure Synced (r : Registry) (records : List StoreRecord) : Prop where
  logged : ∃ store header, r.store = some store ∧ r.options.store = some store.options ∧
    store.Holds header records []
  indexed : r.Indexed
  config : r.Configured
  replays : ∀ now report r', (blank r.options now report).replayAll records = .ok r' → Alike r r'

theorem Alike.of_core {r : Registry} (h : Alike r r') (hcfg : SameConfig r r₁)
    (hcore : r₁.state.core = r.state.core) (hi : r₁.Indexed) : Alike r₁ r' :=
  ⟨h.limits.trans hcfg.limits.symm, h.historyPerKey.trans hcfg.historyPerKey.symm,
    h.closed.trans hcfg.closed.symm, h.core.trans hcore.symm, hi, h.indexed'⟩

section Step

variable {r r₁ : Registry} {records : List StoreRecord} {q : Request}

/-- What a record says was done is what it replays to. -/
theorem Recorded.replays (h : Recorded r q record r₁) (hcfg : SameConfig r r₁) (hi : r₁.Indexed)
    (halike : Alike r r₀) (hr : r₀.replayRecord record = .ok r') : Alike r₁ r' := by
  cases h with
  | @opened d i t t' _ _ _ hok hstate =>
    rw [replayRecord_session_back hok hr]
    have hsame := @Alike.withState _ _ (openState r.state d i t') halike (applySessionOpen r₀.state d i t)
      (by rw [core_applySessionOpen, core_openState, halike.core]) rfl rfl
    exact hsame.of_core ⟨hcfg.options, hcfg.limits, hcfg.historyPerKey, hcfg.closed⟩
      (by rw [hstate]) hi
  | @closed key _ _ hstate =>
    rw [replayRecord_close] at hr
    rw [← Except.ok.inj hr]
    have hsame := @Alike.withState _ _ (applySessionClose r.state key) halike
      (applySessionClose r₀.state key)
      (by rw [core_applySessionClose, core_applySessionClose, halike.core])
      (applySessionClose_frame _ key).2 (applySessionClose_frame _ key).2
    exact hsame.of_core ⟨hcfg.options, hcfg.limits, hcfg.historyPerKey, hcfg.closed⟩
      (by rw [hstate]) hi
  | ingested hacc hok hdisp =>
    obtain ⟨-, m, hm, -⟩ := of_isAccepted_judge hacc
    rw [(replayRecord_evidence_back (admitRecord_eq_ok hm).1 hok hr).1]
    exact halike.ingestLocked _ _ true true false _ .written hdisp

/-- An operation that touches neither the store nor the core. -/
theorem Synced.same (h : Synced r records) (hcfg : SameConfig r r₁) (hstore : r₁.store = r.store)
    (hcore : r₁.state.core = r.state.core) (hi : r₁.Indexed) : Synced r₁ records := by
  refine ⟨?_, hi, h.config.of_same hcfg, ?_⟩
  · rw [hstore, hcfg.options]
    exact h.logged
  · intro now report r' hr
    rw [hcfg.options] at hr
    exact (h.replays now report r' hr).of_core hcfg hcore hi

/-- **A record that was written.**  It is one more of the log, and replays to what the request
did. -/
theorem Synced.written (h : Synced r records) (hs : r.store = some store)
    (hlen : record.payload.length + 56 < 2 ^ 32) (happ : (store.append record io).2 = .ok ())
    (hstore : r₁.store = some (store.append record io).1) (hdoes : Does r q r₁)
    (hrecorded : Recorded r q record r₁) : Synced r₁ (records ++ [record]) := by
  obtain ⟨store', header, hs', hoptions, hholds⟩ := h.logged
  obtain rfl : store' = store := Option.some.inj (hs'.symm.trans hs)
  obtain ⟨hfit, hadvance⟩ := Store.append_acknowledged hlen (by rw [happ]; rfl)
  rw [hadvance] at hstore
  have hcfg := hdoes.frame.1
  have hi := hdoes.indexed h.indexed
  refine ⟨⟨store'.advance record, header, hstore, ?_, by simpa using hholds.advance hfit⟩, hi,
    h.config.of_same hcfg, ?_⟩
  · rw [hcfg.options, hoptions]
    rfl
  · intro now report r' hr
    rw [hcfg.options] at hr
    obtain ⟨r₀, hr₀, hr⟩ := replayAll_concat_eq_ok.mp hr
    exact hrecorded.replays hcfg hi (h.replays now report r₀ hr₀) hr

/-- **A request that appends a record**, or leaves the log alone. -/
theorem Synced.logs (h : Synced r records) (hs : r.store = some store) (htidy : q.Tidy r.options)
    (hdoes : Does r q r₁) (hlogs : Logs r store q r₁) :
    ∃ records', Synced r₁ records' ∧ Extends r q r₁ records records' := by
  have hcfg := hdoes.frame.1
  have hi := hdoes.indexed h.indexed
  cases hlogs with
  | quiet hstore hcore => exact ⟨_, h.same hcfg (hstore.trans hs.symm) hcore hi, .same hcore⟩
  | appended record io _ hlen hio hstore hcase =>
    rcases hcase with ⟨happ, hrecorded⟩ | ⟨⟨error, happ⟩, hcore⟩
    · exact ⟨_, h.written hs hlen happ hstore hdoes hrecorded, .recorded hrecorded⟩
    · obtain ⟨store', header, hs', -, hholds⟩ := h.logged
      obtain rfl : store' = store := Option.some.inj (hs'.symm.trans hs)
      rcases hholds.append_tidy hlen (hio htidy) with ⟨hadvance, -⟩ | ⟨error', hsame⟩
      · exact absurd ((congrArg Prod.snd hadvance).symm.trans happ) (by simp)
      · rw [hsame] at hstore
        exact ⟨_, h.same hcfg (hstore.trans hs.symm) hcore hi, .same hcore⟩

/-! ### Compaction -/

/-- What a compaction does: it rewrites the log as the image, or leaves the file alone. -/
theorem compact_cases (hs : r.store = some store) (husable : Store.Usable store.options)
    (io : Store.RewriteIo) (htidy : io.Tidy) :
    (∃ handleOpen error, (r.compact io).1 =
        { r with store := some { store with handleOpen := handleOpen } } ∧
      (r.compact io).2 = .error error) ∨
    (r.imageOf.ok = true ∧ ∃ store', (r.compact io).1 = { r with store := some store' } ∧
      (r.compact io).2 = .ok () ∧ store'.Holds storeHeader [r.imageRecord] [] ∧
      store'.options = store.options) := by
  have hsame : r = { r with store := some { store with handleOpen := store.handleOpen } } := by
    rw [← hs]
  unfold compact
  split
  · exact .inl ⟨store.handleOpen, _, hsame, rfl⟩
  rw [hs]
  dsimp only
  split
  · exact .inl ⟨store.handleOpen, _, hsame, rfl⟩
  rename_i hok
  rcases store.rewrite_cases [⟨.stateSnapshot, r.imageOf.take⟩] io with
    ⟨handleOpen, error, heq⟩ | ⟨-, ⟨error, rfl, -⟩ | ⟨store', heq, -, hoptions, -, -, hholds⟩⟩
  · exact .inl ⟨handleOpen, ⟨.persistenceFailure, error.message⟩, by rw [heq]; exact ⟨rfl, rfl⟩⟩
  · exact htidy.elim
  · refine .inr ⟨by simpa using hok, store', ?_, ?_, hholds husable ?_, hoptions⟩
    · rw [heq]
    · rw [heq]
      rfl
    · exact List.forall_mem_singleton.mpr (length_payload_lt .stateSnapshot _)

theorem alike_blank (options : RegistryOptions) (now now' : Timestamp)
    (report report' : RecoveryReport) : Alike (blank options now report) (blank options now' report') :=
  ⟨rfl, rfl, rfl, rfl, coveredBy_none _, coveredBy_none _⟩

/-- A registry whose log is its own image. -/
theorem Synced.of_image (hs : r.store = some store)
    (hoptions : r.options.store = some store.options)
    (hholds : store.Holds header [r₀.imageRecord] []) (hok : r₀.imageOf.ok = true)
    (hw : WellKeyed r₀.state) (hi : r.Indexed) (hcfg : r.Configured)
    (hcore : r₀.state.core = r.state.core) :
    Synced r [r₀.imageRecord] := by
  refine ⟨⟨store, header, hs, hoptions, hholds⟩, hi, hcfg, ?_⟩
  intro now report r' hr
  have hone : (blank r.options now report).replayRecord r₀.imageRecord = .ok r' := by
    rw [← hr, replayAll_singleton]
  have hb := configured_blank r.options now report
  obtain ⟨hsame, -⟩ := replayRecord_config hone
  have hstate : r'.state = clearVolatile r₀.state ∧ r'.labelIndex = none := by
    rw [replayRecord_image hw hok hone]
    exact ⟨rfl, rfl⟩
  refine ⟨?_, ?_, ?_, ?_, hi, ?_⟩
  · rw [hsame.limits, hcfg.limits]
    exact hb.limits
  · rw [hsame.historyPerKey, hcfg.historyPerKey]
    exact hb.historyPerKey
  · rw [hsame.closed, hcfg.closed]
    exact hb.closed
  · rw [hstate.1, core_clearVolatile, hcore]
  · unfold Indexed
    rw [hstate.2]
    exact coveredBy_none _

theorem Synced.compact (h : Synced r records) (hw : WellKeyed r.state) {io : Store.RewriteIo}
    (htidy : io.Tidy) :
    (r.compact io).1.state = r.state ∧
      (Synced (r.compact io).1 records ∨
        r.imageOf.ok = true ∧ Synced (r.compact io).1 [r.imageRecord]) := by
  obtain ⟨store, header, hs, hoptions, hholds⟩ := h.logged
  rcases compact_cases hs hholds.usable io htidy with
    ⟨handleOpen, error, heq, -⟩ | ⟨hok, store', heq, -, hnew, hsame⟩
  · rw [heq]
    refine ⟨rfl, .inl ?_⟩
    refine ⟨⟨{ store with handleOpen := handleOpen }, header, rfl, hoptions, hholds.flags _ _⟩,
      h.indexed, ⟨h.config.limits, h.config.historyPerKey, h.config.closed⟩, ?_⟩
    intro now report r' hr
    exact (h.replays now report r' hr).of_core ⟨rfl, rfl, rfl, rfl⟩ rfl h.indexed
  · rw [heq]
    have hconfig : ({ r with store := some store' } : Registry).Configured :=
      ⟨h.config.limits, h.config.historyPerKey, h.config.closed⟩
    refine ⟨rfl, .inr ⟨hok, Synced.of_image rfl ?_ hnew hok hw h.indexed hconfig rfl⟩⟩
    rw [hsame]
    exact hoptions

end Step

/-! ### Opening -/

section Open

variable {options : RegistryOptions} {disk : Option (List UInt8)} {env : OpenEnv} {r : Registry}

theorem core_mintId (r : Registry) (draw : Id128) : (r.mintId draw).state.core = r.state.core := by
  unfold mintId
  split <;> rfl

theorem mintId_eq (r : Registry) (draw : Id128) :
    r.mintId draw = { r with state := { r.state with id := (r.mintId draw).state.id } } := by
  unfold mintId
  split <;> rfl

theorem mintId_id (r : Registry) (draw : Id128) :
    (r.mintId draw).state.id = if r.state.id.isNil then
        if r.options.id.isNil then ⟨randomId128 draw⟩ else r.options.id
      else r.state.id := by
  unfold mintId
  split <;> rfl

/-- A registry that was replayed, once it has its store and its identity and its lifetime begins. -/
def begun (r₀ : Registry) (store : Option Store) (id : RegistryId) : Registry :=
  { r₀ with store := store, state := clearVolatile { r₀.state with id := id } }

theorem clearLifetime_mintId (r₀ : Registry) (store : Option Store) (draw : Id128) :
    ({ r₀ with store := store }.mintId draw).clearLifetime =
      begun r₀ store (r₀.mintId draw).state.id := by
  rw [mintId_eq, mintId_id, mintId_id r₀]
  rfl

theorem indexed_clearLifetime (h : r.Indexed) : r.clearLifetime.Indexed := by
  intro i hi object owner f hf hlabel
  have hblur : OrdMap.find₂ (clearVolatile r.state).objectRegistrations object owner =
      (OrdMap.find₂ r.state.objectRegistrations object owner).map (Folded.blur _) :=
    find₂_blurGroups _ _ _ _
  have hf' : OrdMap.find₂ (clearVolatile r.state).objectRegistrations object owner = some f := hf
  rw [hblur] at hf'
  obtain ⟨f₀, hf₀, rfl⟩ := Option.map_eq_some_iff.mp hf'
  exact h i hi object owner f₀ hf₀ hlabel

theorem alike_begun (hi : r₀.Indexed) (store : Option Store) (id : RegistryId) :
    Alike (begun r₀ store id) r₀ :=
  ⟨rfl, rfl, rfl, (core_clearVolatile { r₀.state with id := id }).symm,
    @indexed_clearLifetime { r₀ with state := { r₀.state with id := id } } hi, hi⟩

theorem wellKeyed_begun (h : WellKeyed r₀.state) (store : Option Store) (id : RegistryId) :
    WellKeyed (begun r₀ store id).state := by
  obtain ⟨h₁, h₂, h₃, h₄, h₅, h₆, h₇, h₈, h₉⟩ := h
  have hid : WellKeyed { r₀.state with id := id } := ⟨h₁, h₂, h₃, h₄, h₅, h₆, h₇, h₈, h₉⟩
  exact hid.blur _

theorem indexed_replayAll {now : Timestamp}
    (h : (blank options now report).replayAll records = .ok r') :
    r'.Indexed := by
  have halike := (alike_blank options now now report report).replayAll records
  rw [h] at halike
  cases halike with
  | ok ha => exact ha.indexed

/-- A registry that was replayed from its whole log. -/
theorem Synced.of_replayed (hoptions : options.store = some store.options)
    (hholds : store.Holds header records []) {now : Timestamp}
    (hr : (blank options now report).replayAll records = .ok r₀) (id : RegistryId) :
    Synced (begun r₀ (some store) id) records := by
  have halike := alike_begun (indexed_replayAll hr) (some store) id
  obtain ⟨hcfg, -⟩ := replayAll_config records hr
  have hopt : (begun r₀ (some store) id).options = options := hcfg.options
  have hconfig := (configured_blank options now report).of_same hcfg
  refine ⟨⟨store, header, rfl, hopt ▸ hoptions, hholds⟩, halike.indexed,
    ⟨hconfig.limits, hconfig.historyPerKey, hconfig.closed⟩, ?_⟩
  intro now' report' r' hr'
  rw [hopt] at hr'
  have hboth := (alike_blank options now now' report report').replayAll records
  rw [hr, hr'] at hboth
  cases hboth with
  | ok hsame => exact halike.trans hsame

/-- The store that an open reads, and the records it finds. -/
structure ReadsLog (options : RegistryOptions) (disk : Option (List UInt8)) (store : Store)
    (header : List UInt8) (records : List StoreRecord) : Prop where
  stored : options.store = some store.options
  outcome : ∃ opened, (Store.open store.options disk).outcome = .ok opened
  holds : store.Holds header records []
  found : disk.getD [] ≠ [] → records = (Store.scanFile store.options (disk.getD [])).records

/-- The registry that writes the first record of a new log. -/
def founder (options : RegistryOptions) (env : OpenEnv) (report : RecoveryReport) (store : Store) :
    Registry :=
  { blank options env.now report with
    store := some store
    state := { id := ((initial options env.now).mintId env.draw).state.id, openedAt := env.now } }

theorem mintId_blank (store : Store) :
    ({ blank options env.now report with store := some store } : Registry).mintId env.draw =
      founder options env report store := by
  unfold founder
  rw [mintId_eq, mintId_id, mintId_id (initial options env.now)]
  rfl

/-- **What an open comes to**: what it leaves on the disk, and the registry or an error. -/
inductive Opens (options : RegistryOptions) (disk : Option (List UInt8)) (env : OpenEnv) :
    Option (List UInt8) → Outcome Registry → Prop
  | refused (error : Error) : Opens options disk env disk (.error error)
  | volatile (checked : checkOptions options = .ok ()) (stored : options.store = none) :
      Opens options disk env disk (.ok (begun (initial options env.now) none
        ((initial options env.now).mintId env.draw).state.id))
  | unread {store : Store} {header : List UInt8} {records : List StoreRecord}
      (reads : ReadsLog options disk store header records)
      (fresh : disk.getD [] = [] → records = []) (error : Error) :
      Opens options disk env (some store.file) (.error error)
  | replayed {store : Store} {header : List UInt8} {records : List StoreRecord} {r₀ : Registry}
      {report : RecoveryReport} (checked : checkOptions options = .ok ())
      (reads : ReadsLog options disk store header records) (old : disk.getD [] ≠ [])
      (replay : (blank options env.now report).replayAll records = .ok r₀)
      (owned : r₀.state.id.isNil = false → options.id.isNil = false → r₀.state.id = options.id) :
      Opens options disk env (some store.file)
        (.ok (begun r₀ (some store) (r₀.mintId env.draw).state.id))
  | unwritten {store : Store} {header : List UInt8} {report : RecoveryReport}
      (reads : ReadsLog options disk store header []) (fresh : disk.getD [] = [])
      (encoded : (founder options env report store).imageOf.ok = true) (error : Error) :
      Opens options disk env
        (some (store.append (founder options env report store).imageRecord env.io).1.file) (.error error)
  | created {store : Store} {header : List UInt8} {report : RecoveryReport}
      (checked : checkOptions options = .ok ()) (reads : ReadsLog options disk store header [])
      (fresh : disk.getD [] = []) (encoded : (founder options env report store).imageOf.ok = true)
      (fit : FitsFrame store.options.maxRecordBytes (founder options env report store).imageRecord) :
      Opens options disk env
        (some (store.advance (founder options env report store).imageRecord).file)
        (.ok (begun (founder options env report store)
          (some (store.advance (founder options env report store).imageRecord))
          (founder options env report store).state.id))

/-- What becomes of the first record of a new log. -/
theorem bootstrap_cases (hs : r.store = some store) (io : Store.AppendIo) :
    (∃ error, r.bootstrap io = (r, .error error)) ∨
    r.imageOf.ok = true ∧
      ((∃ error, r.bootstrap io =
          ({ r with store := some (store.append r.imageRecord io).1 }, .error error)) ∨
        FitsFrame store.options.maxRecordBytes r.imageRecord ∧
          r.bootstrap io = ({ r with store := some (store.advance r.imageRecord) }, .ok ())) := by
  unfold bootstrap
  split
  · exact .inl ⟨_, rfl⟩
  · rename_i hok
    refine .inr ⟨by simpa using hok, ?_⟩
    unfold appendRecord
    rw [hs]
    change (∃ error, (({ r with store := some (store.append r.imageRecord io).1 } : Registry),
        (store.append r.imageRecord io).2) = _) ∨ _ ∧ (_, (store.append r.imageRecord io).2) = _
    cases happ : (store.append r.imageRecord io).2 with
    | error error => exact .inl ⟨error, rfl⟩
    | ok _ =>
      have hdone : (store.append r.imageRecord io).2.isOk = true := by rw [happ]; rfl
      obtain ⟨hfit, happ'⟩ := Store.append_acknowledged (length_payload_lt .stateSnapshot _) hdone
      exact .inr ⟨hfit, congrArg (fun p : Store × Outcome Unit =>
        (({ r with store := some p.1 } : Registry), (Except.ok () : Outcome Unit))) happ'⟩

/-- **Every open is one of them.** -/
theorem opens (options : RegistryOptions) (disk : Option (List UInt8)) (env : OpenEnv) :
    Opens options disk env (Registry.open options disk env).1 (Registry.open options disk env).2 := by
  unfold Registry.open
  cases checked : checkOptions options with
  | error error => exact .refused error
  | ok _ =>
    cases hs : options.store with
    | none =>
      have hvolatile := @Opens.volatile options disk env checked hs
      rw [← clearLifetime_mintId] at hvolatile
      exact hvolatile
    | some storeOptions =>
      dsimp only
      cases hopen : (Store.open storeOptions disk).outcome with
      | error error =>
        rw [Store.disk_of_open_error hopen]
        exact .refused error
      | ok opened =>
        obtain ⟨header, records, hholds, rfl, hclosed, -, hreplayed, hdisk, hfound⟩ :=
          Store.open_eq_ok hopen
        have hreads : ReadsLog options disk { opened with replayed := true } header records :=
          ⟨hs, ⟨opened, hopen⟩, ⟨hholds.usable, hholds.headerOk, hholds.fits, hholds.file,
            hholds.writeOffset, hholds.validEnd, hholds.position⟩,
            fun hold => (hfound.resolve_left fun hnew => hold hnew.1).2.2.1⟩
        have hunread : ∀ error, Opens options disk env (some opened.file) (.error error) :=
          fun error => Opens.unread hreads
            (fun hnew => (hfound.resolve_right fun hold => hold.1 hnew).2.2) error
        simp only [hdisk, hholds.visitRecords replayVisit hclosed hreplayed]
        cases hvisit : Store.visitAll replayVisit
            (blank options env.now (Store.open opened.options disk).report, none) records with
        | mk r₀ failure =>
          rw [show ({ initial options env.now with recovery := (Store.open opened.options disk).report } :
            Registry) = blank options env.now (Store.open opened.options disk).report from rfl, hvisit]
          cases failure with
          | some failure => exact hunread _
          | none =>
            rw [visitAll_replayVisit] at hvisit
            dsimp only
            split
            · exact hunread _
            rename_i hid
            rcases hfound with ⟨hnew, hcreated, rfl⟩ | ⟨hold, hcreated, -⟩
            · rw [if_pos hcreated]
              obtain rfl := Except.ok.inj (show (Except.ok (blank options env.now
                (Store.open opened.options disk).report) : Except String Registry) = _ from hvisit)
              rw [mintId_blank]
              rcases bootstrap_cases (show (founder options env (Store.open opened.options disk).report
                  { opened with replayed := true }).store = _ from rfl) env.io with
                ⟨error, hboot⟩ | ⟨hok, ⟨error, hboot⟩ | ⟨hfit, hboot⟩⟩
              · rw [hboot]
                exact hunread _
              · rw [hboot]
                exact .unwritten hreads hnew hok error
              · rw [hboot]
                exact .created checked hreads hnew hok hfit
            · rw [if_neg (by rw [hcreated]; decide), clearLifetime_mintId]
              refine .replayed checked hreads hold hvisit fun hnil hnil' => ?_
              by_contra hne
              apply hid
              simp [hnil, hnil', hne]

theorem opens_of_ok (h : (Registry.open options disk env).2 = .ok r) :
    ∃ left, Opens options disk env left (.ok r) :=
  ⟨_, h ▸ opens options disk env⟩

theorem checked_of_open (h : (Registry.open options disk env).2 = .ok r) :
    checkOptions options = .ok () := by
  obtain ⟨_, hopens⟩ := opens_of_ok h
  cases hopens with
  | volatile hcheck | replayed hcheck | created hcheck => exact hcheck

/-- Where the log of a registry that has just been opened comes from: it was replayed, or it
is a new one that holds the image of an empty state. -/
inductive Origin (options : RegistryOptions) (disk : Option (List UInt8)) (env : OpenEnv)
    (r : Registry) (records : List StoreRecord) : Prop
  | replayed (report : RecoveryReport) (r₀ : Registry) (old : disk.getD [] ≠ [])
      (replay : (blank options env.now report).replayAll records = .ok r₀)
      (owned : r₀.state.id.isNil = false → options.id.isNil = false → r₀.state.id = options.id)
      (id_eq : r.state.id = (r₀.mintId env.draw).state.id)
  | created (r₀ : Registry) (fresh : disk.getD [] = []) (image : records = [r₀.imageRecord])
      (encoded : r₀.imageOf.ok = true) (limits : r₀.limits = options.limits)
      (empty : r₀.state = { id := r.state.id, openedAt := env.now })
      (state : r.state = clearVolatile r₀.state)
      (minted : r.state.id = ((initial options env.now).mintId env.draw).state.id)

/-- **A registry that has just been opened is in step with its log**, whatever the log
was. -/
theorem Synced.of_open (hs : options.store = some storeOptions)
    (h : (Registry.open options disk env).2 = .ok r) :
    r.options = options ∧ ∃ records, Synced r records ∧ Origin options disk env r records := by
  obtain ⟨_, hopens⟩ := opens_of_ok h
  cases hopens with
  | volatile _ hnone => exact absurd (hs.symm.trans hnone) (by simp)
  | @replayed store header records r₀ report _ hreads hold hreplay howned =>
    exact ⟨(replayAll_config records hreplay).1.options, records,
      .of_replayed hreads.stored hreads.holds hreplay _, .replayed _ r₀ hold hreplay howned rfl⟩
  | created _ hreads hnew hok hfit =>
    refine ⟨rfl, [_], Synced.of_image rfl hreads.stored (hreads.holds.advance hfit) hok (.empty _ _)
      (indexed_clearLifetime ?_) ⟨rfl, rfl, rfl⟩ (core_clearVolatile _).symm,
      .created _ hnew rfl hok rfl rfl rfl rfl⟩
    exact (alike_blank options env.now env.now {} {}).indexed

/-- A registry that is reopened replays its log. -/
theorem Synced.reopen_replays (h : Synced r records)
    (hopen : (Registry.open r.options r.disk env).2 = .ok r') :
    r'.options = r.options ∧ Synced r' records ∧
      ∃ report r₀ id, (blank r.options env.now report).replayAll records = .ok r₀ ∧
        r'.state = clearVolatile { r₀.state with id := id } := by
  obtain ⟨store, header, hs, hoptions, hholds⟩ := h.logged
  have hdisk : r.disk.getD [] = header ++ Store.frames store.options records := by
    rw [Registry.disk, hs, Option.map_some, Option.getD_some, hholds.file, List.append_nil]
  have hold : r.disk.getD [] ≠ [] := by
    rw [hdisk]
    exact List.append_ne_nil_of_left_ne_nil hholds.headerOk.ne_nil _
  obtain ⟨_, hopens⟩ := opens_of_ok hopen
  cases hopens with
  | volatile _ hnone => exact absurd (hoptions.symm.trans hnone) (by simp)
  | created _ _ hnew => exact absurd hnew hold
  | @replayed store' _ found r₀ report _ hreads _ hreplay =>
    obtain rfl : found = records := by
      have hsame := Option.some.inj (hoptions.symm.trans hreads.stored)
      rw [hreads.found hold, hdisk, ← hsame, Store.scanFile_frames hholds.headerOk.length hholds.fits]
    exact ⟨(replayAll_config found hreplay).1.options,
      .of_replayed hreads.stored hreads.holds hreplay _, report, r₀, _, hreplay, rfl⟩

/-- **Reopening gives back the core.**  What else the reopened state holds is a new
identity at most, the time of the open, and the sessions the log has. -/
theorem Synced.reopen (h : Synced r records)
    (hopen : (Registry.open r.options r.disk env).2 = .ok r') :
    r'.options = r.options ∧ Synced r' records ∧
      ∃ s₀ : RegistryState, r'.state = clearVolatile s₀ ∧ s₀.core = r.state.core := by
  obtain ⟨hoptions, hsynced, report, r₀, id, hreplay, hstate⟩ := h.reopen_replays hopen
  exact ⟨hoptions, hsynced, _, hstate, (h.replays _ _ r₀ hreplay).core⟩

end Open

/-- **A request keeps the registry in step with its log.** -/
theorem Synced.step {r r₁ : Registry} {q : Request} (h : Synced r records)
    (hw : ∀ io, q = .compact io → WellKeyed r.state) (htidy : q.Tidy r.options) (hstep : r.step q = .ok r₁) :
    ∃ records', Synced r₁ records' ∧ Extends r q r₁ records records' := by
  obtain ⟨store, header, hs, hoptions, -⟩ := h.logged
  cases q with
  | openSession d i t t' io =>
    have hdoes := does (by simp) hstep
    obtain rfl := Except.ok.inj hstep
    exact h.logs hs htidy hdoes (logs_openSession hs hoptions d i t t' io)
  | closeSession key io =>
    have hdoes := does (by simp) hstep
    obtain rfl := Except.ok.inj hstep
    exact h.logs hs htidy hdoes (logs_closeSession hs hoptions key io)
  | ingest e t io =>
    obtain rfl := Except.ok.inj hstep
    exact h.logs hs htidy (.ingested e t io) (logs_ingest hs hoptions e t io)
  | compact io =>
    obtain rfl := Except.ok.inj hstep
    obtain ⟨hstate, hsame | ⟨hok, hnew⟩⟩ := h.compact (hw io rfl) htidy
    · exact ⟨records, hsame, .same (by rw [hstate])⟩
    · exact ⟨_, hnew, .imaged rfl hok hstate⟩
  | reopen env =>
    obtain ⟨-, hsynced, s₀, hstate, hcore⟩ := h.reopen hstep
    exact ⟨records, hsynced, .same (by rw [hstate, core_clearVolatile, hcore])⟩

end Registry

/-- A run that starts with an open and comes to an end. -/
theorem Registry.exists_of_isOk_run {options : RegistryOptions} {disk : Option (List UInt8)}
    {env : OpenEnv} {requests : List Request}
    (h : ((Registry.open options disk env).2 >>= fun r => r.run requests).isOk = true) :
    ∃ r₀ r, (Registry.open options disk env).2 = .ok r₀ ∧ r₀.run requests = .ok r := by
  cases hopen : (Registry.open options disk env).2 with
  | error error =>
    rw [hopen] at h
    exact absurd h (by simp [bind, Except.bind, Except.isOk, Except.toBool])
  | ok r₀ =>
    rw [hopen] at h
    cases hrun : r₀.run requests with
    | error error =>
      simp only [bind, Except.bind, hrun] at h
      exact absurd h (by simp [Except.isOk, Except.toBool])
    | ok r => exact ⟨r₀, r, rfl, hrun⟩

end CableRegistry
