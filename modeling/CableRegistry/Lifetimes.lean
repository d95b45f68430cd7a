import CableRegistry.Reachable
import CableRegistry.Restoration
import CableRegistry.Tails

/-!
# One registry after another

A log outlives the registries that write it.  Each of them is opened on what the one before it
left, under options of its own, works for a while and stops; it may stop in the middle of a
write.  A `Lineage` is such a sequence of registries and what it leaves on the disk.

The log of a registry grows by records that are no images, or is replaced by the image of its
state (`Grows`).  So what holds of the images in a log holds along a lineage, and with it what
holds of every state that is replayed from them (`replayAll_keeps`).

* `identity_kept`: the registries of a lineage have one identity, if each of them finds a whole
  record in a log that is not new.
-/

open Std (ExtTreeMap)

namespace CableRegistry

variable {error : Error} {requests : List Request} {after records : List StoreRecord}
  {file : List UInt8} {disk : Option (List UInt8)} {s : RegistryState} {q : Request}
  {options' : StoreOptions} {record : StoreRecord}

namespace Registry

/-! ### How a log grows -/

/-- The records of a log after a request of its registry. -/
inductive Grows (r : Registry) (records : List StoreRecord) : List StoreRecord → Prop
  | same : Grows r records records
  | appended (record : StoreRecord) (h : record.kind ≠ .stateSnapshot) :
      Grows r records (records ++ [record])
  | rewritten (h : r.imageOf.ok = true) : Grows r records [r.imageRecord]

/-- What a request does to the store. -/
inductive Touches (r : Registry) (store : Store) (q : Request) : Store → Prop
  | same : Touches r store q store
  | appended (record : StoreRecord) (io : Store.AppendIo) (hkind : record.kind ≠ .stateSnapshot)
      (hlen : record.payload.length + 56 < 2 ^ 32)
      (htidy : q.Tidy r.options → io.Tidy store.options.fsyncOnCommit) :
      Touches r store q (store.append record io).1
  | rewritten (io : Store.RewriteIo) (hok : r.imageOf.ok = true) (htidy : q.Tidy r.options → io.Tidy) :
      Touches r store q (store.rewrite [r.imageRecord] io).1

section Step

variable {r r' : Registry} {store store' : Store} {q : Request} {header : List UInt8}
  {records : List StoreRecord}

theorem compact_touches (hs : r.store = some store) (io : Store.RewriteIo) :
    ∃ store', (r.compact io).1.store = some store' ∧ Touches r store (.compact io) store' := by
  unfold compact
  split
  · exact ⟨store, hs, .same⟩
  rw [hs]
  dsimp only
  split
  · exact ⟨store, hs, .same⟩
  · rename_i hok
    exact ⟨_, rfl, .rewritten io (by simpa using hok) id⟩

/-- **What a request does to the store.** -/
theorem step_touches (hs : r.store = some store) (hoptions : r.options.store = some store.options)
    (hq : ∀ env, q ≠ .reopen env) (hstep : r.step q = .ok r') :
    ∃ store', r'.store = some store' ∧ Touches r store q store' := by
  have htouches : Logs r store q r' → ∃ store', r'.store = some store' ∧ Touches r store q store' := by
    intro hlogs
    cases hlogs with
    | quiet hstore => exact ⟨store, hstore, .same⟩
    | appended record io hkind hlen htidy hstore => exact ⟨_, hstore, .appended record io hkind hlen htidy⟩
  cases q with
  | openSession d i t t' io =>
    obtain rfl := Except.ok.inj hstep
    exact htouches (logs_openSession hs hoptions d i t t' io)
  | closeSession key io =>
    obtain rfl := Except.ok.inj hstep
    exact htouches (logs_closeSession hs hoptions key io)
  | ingest e t io =>
    obtain rfl := Except.ok.inj hstep
    exact htouches (logs_ingest hs hoptions e t io)
  | compact io =>
    obtain rfl := Except.ok.inj hstep
    exact compact_touches hs io
  | reopen env => exact absurd rfl (hq env)

/-- A tidy request leaves a log and nothing behind it. -/
theorem Touches.holds (h : Touches r store q store') (hholds : store.Holds header records [])
    (htidy : q.Tidy r.options) :
    ∃ header' records', store'.Holds header' records' [] ∧ store'.options = store.options ∧
      Grows r records records' := by
  cases h with
  | same => exact ⟨header, records, hholds, rfl, .same⟩
  | appended record io hkind hlen hio =>
    rcases hholds.append_tidy hlen (hio htidy) with ⟨happ, hnew⟩ | ⟨error, happ⟩
    · rw [happ]
      exact ⟨header, _, hnew, rfl, .appended record hkind⟩
    · rw [happ]
      exact ⟨header, records, hholds, rfl, .same⟩
  | rewritten io hok hio =>
    rcases store.rewrite_cases [r.imageRecord] io with
      ⟨handleOpen, error, heq⟩ | ⟨-, ⟨error, rfl, -⟩ | ⟨store', heq, -, hoptions, -, -, hnew⟩⟩
    · rw [heq]
      exact ⟨header, records, hholds.flags _ _, rfl, .same⟩
    · exact (hio htidy).elim
    · rw [heq]
      refine ⟨_, _, hnew hholds.usable ?_, hoptions, .rewritten hok⟩
      exact List.forall_mem_singleton.mpr (length_payload_lt .stateSnapshot _)

/-- Any request leaves a log, with a part of one more frame at most. -/
theorem Touches.logFile (h : Touches r store q store') (hholds : store.Holds header records []) :
    ∃ records', Store.LogFile store.options store'.file records' ∧ Grows r records records' := by
  cases h with
  | same => exact ⟨records, .of_holds hholds, .same⟩
  | appended record io hkind hlen hio =>
    rcases Store.LogFile.append hholds hlen io with hold | hnew
    · exact ⟨records, hold, .same⟩
    · exact ⟨_, hnew, .appended record hkind⟩
  | rewritten io hok hio =>
    rcases Store.LogFile.rewrite hholds
      (show r.imageRecord.payload.length + 56 < 2 ^ 32 from length_payload_lt .stateSnapshot _) io with
      hold | hnew
    · exact ⟨records, hold, .same⟩
    · exact ⟨_, hnew, .rewritten hok⟩

/-- A request other than a reopen keeps the state well keyed and the configuration. -/
theorem step_frame (hw : WellKeyed r.state) (hi : r.Indexed) (hq : ∀ env, q ≠ .reopen env)
    (hstep : r.step q = .ok r') : WellKeyed r'.state ∧ r'.Indexed ∧ SameConfig r r' ∧
      Effect r.limits r.historyPerKey r.state q (r.acceptedBy q) r'.state := by
  have hdoes := does hq hstep
  exact ⟨hdoes.wellKeyed hw, hdoes.indexed hi, hdoes.frame.1, hdoes.effect hi⟩

end Step

/-! ### A registry in use -/

/-- The registry uses a log of the records. -/
structure Using (r : Registry) (records : List StoreRecord) : Prop where
  logged : ∃ store header, r.store = some store ∧ r.options.store = some store.options ∧
    store.Holds header records []
  wellKeyed : WellKeyed r.state
  indexed : r.Indexed

section Using

variable {r r' : Registry} {records : List StoreRecord}

theorem Using.disk_eq (h : r.Using records) :
    ∃ options file, r.disk = some file ∧ Store.LogFile options file records := by
  obtain ⟨store, header, hs, -, hholds⟩ := h.logged
  exact ⟨store.options, store.file, by rw [Registry.disk, hs, Option.map_some], .of_holds hholds⟩

theorem Using.step (h : r.Using records) (hq : ∀ env, q ≠ .reopen env) (htidy : q.Tidy r.options)
    (hstep : r.step q = .ok r') :
    ∃ records', r'.Using records' ∧ Grows r records records' := by
  obtain ⟨store, header, hs, hoptions, hholds⟩ := h.logged
  obtain ⟨hw, hi, hcfg, -⟩ := step_frame h.wellKeyed h.indexed hq hstep
  obtain ⟨store', hs', htouches⟩ := step_touches hs hoptions hq hstep
  obtain ⟨header', records', hholds', hopts, hgrows⟩ := htouches.holds hholds htidy
  refine ⟨records', ⟨⟨store', header', hs', ?_, hholds'⟩, hw, hi⟩, hgrows⟩
  rw [hcfg.options, hoptions, hopts]

/-- The last request of a registry may be cut short. -/
theorem Using.last (h : r.Using records) (hq : ∀ env, q ≠ .reopen env) (hstep : r.step q = .ok r') :
    ∃ options file records', r'.disk = some file ∧ Store.LogFile options file records' ∧
      Grows r records records' := by
  obtain ⟨store, header, hs, hoptions, hholds⟩ := h.logged
  obtain ⟨store', hs', htouches⟩ := step_touches hs hoptions hq hstep
  obtain ⟨records', hfile, hgrows⟩ := htouches.logFile hholds
  exact ⟨store.options, store'.file, records', by rw [Registry.disk, hs', Option.map_some], hfile,
    hgrows⟩

/-- **What a registry leaves behind**, if its requests, other than the last, are tidy.  What
every request keeps of the registry and its log holds of what it leaves. -/
theorem Using.leaves (h : r.Using records) {Q : Registry → List StoreRecord → Prop}
    (hQ : ∀ {r r' q records records'}, WellKeyed r.state → r.Indexed → (∀ env, q ≠ .reopen env) →
      r.step q = .ok r' → Grows r records records' → Q r records → Q r' records')
    {requests : List Request} (hplain : ∀ env, .reopen env ∉ requests)
    (htidy : ∀ q ∈ requests.dropLast, q.Tidy r.options) (hrun : r.run requests = .ok r')
    (hr : Q r records) :
    ∃ options file records', r'.disk = some file ∧ Store.LogFile options file records' ∧
      Q r' records' := by
  induction requests generalizing r records with
  | nil =>
    obtain rfl : r = r' := Except.ok.inj hrun
    obtain ⟨options, file, hdisk, hfile⟩ := h.disk_eq
    exact ⟨options, file, records, hdisk, hfile, hr⟩
  | cons q requests ih =>
    have hq : ∀ env, q ≠ .reopen env := fun env heq => hplain env (by simp [heq])
    obtain ⟨r₁, hstep, hrun⟩ := foldlM_cons_eq_ok.mp hrun
    cases requests with
    | nil =>
      obtain rfl : r₁ = r' := Except.ok.inj hrun
      obtain ⟨options, file, records', hdisk, hfile, hgrows⟩ := h.last hq hstep
      exact ⟨options, file, records', hdisk, hfile, hQ h.wellKeyed h.indexed hq hstep hgrows hr⟩
    | cons q' requests =>
      obtain ⟨records₁, h₁, hgrows⟩ := h.step hq (htidy q (by simp)) hstep
      have hcfg := (step_frame h.wellKeyed h.indexed hq hstep).2.2.1
      refine ih h₁ (fun env hmem => hplain env (List.mem_cons_of_mem q hmem)) ?_ hrun
        (hQ h.wellKeyed h.indexed hq hstep hgrows hr)
      intro q'' hq''
      rw [hcfg.options]
      exact htidy q'' (by rw [List.dropLast_cons_cons]; exact List.mem_cons_of_mem q hq'')

end Using

/-! ### Replaying what another registry left -/

/-- Every image in the log is that of a well keyed state with the property. -/
def ImagesOf (I : RegistryState → Prop) (records : List StoreRecord) : Prop :=
  ∀ record ∈ records, record.kind = .stateSnapshot →
    ∃ r : Registry, WellKeyed r.state ∧ I r.state ∧ r.imageOf.ok = true ∧ record = r.imageRecord

/-- A property of states that replaying a log keeps. -/
structure Replays (I : RegistryState → Prop) : Prop where
  cleared : ∀ {s : RegistryState}, I s → I (clearVolatile s)
  opened : ∀ {s : RegistryState} (d : SourceDescriptor) (i : Incarnation) (t : Timestamp),
    I s → I (applySessionOpen s d i t)
  closed : ∀ {s : RegistryState} (key : SourceIncarnationKey), I s → I (applySessionClose s key)
  ingested : ∀ {r : Registry} (e : Evidence) (t : Timestamp), WellKeyed r.state → r.Indexed →
    I r.state → I (r.ingestLocked e t false false .written).1.state

section Images

variable {I : RegistryState → Prop} {r r' : Registry} {records records' : List StoreRecord}

theorem ImagesOf.grows (h : ImagesOf I records) (hw : WellKeyed r.state) (hI : I r.state)
    (hgrows : Grows r records records') : ImagesOf I records' := by
  cases hgrows with
  | same => exact h
  | appended record hkind =>
    intro record' hmem hkind'
    rcases List.mem_append.mp hmem with hmem | hmem
    · exact h record' hmem hkind'
    · exact absurd (List.mem_singleton.mp hmem ▸ hkind') hkind
  | rewritten hok =>
    intro record' hmem hkind'
    exact ⟨r, hw, hI, hok, List.mem_singleton.mp hmem⟩

theorem ImagesOf.front (h : ImagesOf I (records ++ after)) :
    ImagesOf I records := fun record hmem => h record (List.mem_append_left _ hmem)

theorem wellKeyed_applySessionOpen (h : WellKeyed s) (d : SourceDescriptor) (i : Incarnation)
    (t : Timestamp) : WellKeyed (applySessionOpen s d i t) := by
  obtain ⟨h₁, h₂, h₃, h₄, h₅, h₆, h₇, h₈, h₉⟩ := h
  exact ⟨h₁, h₂, h₃, h₄, h₅, h₆, h₇, h₈, h₉⟩

theorem wellKeyed_applySessionClose (h : WellKeyed s) (key : SourceIncarnationKey) :
    WellKeyed (applySessionClose s key) ∧
      (applySessionClose s key).objectRegistrations = s.objectRegistrations := by
  rcases applySessionClose_cases s key with hsame | ⟨-, session, hsame⟩
  · rw [hsame]
    exact ⟨h, rfl⟩
  · rw [hsame]
    exact ⟨h.withSessions _, rfl⟩

/-- What a replay keeps, one record at a time.  An image brings its own state, so what was there
before it matters only to the other records. -/
theorem replayRecord_keeps (hI : Replays I) (himages : ImagesOf I [record]) (hw : WellKeyed r.state)
    (hi : r.Indexed) (hr : record.kind ≠ .stateSnapshot → I r.state)
    (h : r.replayRecord record = .ok r') : WellKeyed r'.state ∧ r'.Indexed ∧ I r'.state := by
  rcases replayRecord_cases h with ⟨hkind, -⟩ | ⟨hkind, ⟨d, i, t, rfl⟩ | ⟨key, rfl⟩ | ⟨e, t, rfl⟩⟩
  · obtain ⟨r₀, hw₀, hI₀, hok, rfl⟩ := himages record List.mem_cons_self hkind
    rw [replayRecord_image hw₀ hok h]
    exact ⟨hw₀.blur _, coveredBy_none _, hI.cleared hI₀⟩
  · exact ⟨wellKeyed_applySessionOpen hw d i t, hi, hI.opened d i t (hr hkind)⟩
  · obtain ⟨hw', hregistrations⟩ := wellKeyed_applySessionClose hw key
    exact ⟨hw', hi.of_same ((Wrote.refl r).rest _) hregistrations, hI.closed key (hr hkind)⟩
  · exact ⟨(r.ingestLocked_frame e t false false .written).2.2 hw,
      indexed_ingestLocked hi e t false false .written, hI.ingested e t hw hi (hr hkind)⟩

/-- **What holds of the images of a log holds of what it replays to.** -/
theorem replayAll_keeps (hI : Replays I) (himages : ImagesOf I records) (hw : WellKeyed r.state)
    (hi : r.Indexed) (hr : (∀ first rest, records = first :: rest → first.kind ≠ .stateSnapshot) →
      I r.state)
    (h : r.replayAll records = .ok r') : WellKeyed r'.state ∧ I r'.state := by
  induction records generalizing r with
  | nil =>
    obtain rfl : r = r' := Except.ok.inj h
    exact ⟨hw, hr (by simp)⟩
  | cons record records ih =>
    obtain ⟨r₁, hstep, h⟩ := foldlM_cons_eq_ok.mp h
    have hone : ImagesOf I [record] := fun record' hmem =>
      himages record' (by simp [List.mem_singleton.mp hmem])
    obtain ⟨hw₁, hi₁, hI₁⟩ := replayRecord_keeps hI hone hw hi (fun hkind => hr (by
      rintro first rest heq
      rw [← (List.cons.inj heq).1]
      exact hkind)) hstep
    exact ih (fun record' hmem => himages record' (List.mem_cons_of_mem _ hmem)) hw₁ hi₁
      (fun _ => hI₁) h

end Images

/-! ### Opening what another registry left -/

section Open

variable {options : RegistryOptions} {storeOptions : StoreOptions} {disk : Option (List UInt8)}
  {env : OpenEnv} {r : Registry}

section

variable (hs : options.store = some storeOptions)

include hs

/-- What a registry that opens on a log was replayed from. -/
theorem open_logFile (hfile : Store.LogFile options' file records)
    (hopen : (Registry.open options (some file) env).2 = .ok r) :
    ∃ report r₀ store header after,
      records = (Store.scanFile storeOptions file).records ++ after ∧
      (blank options env.now report).replayAll (Store.scanFile storeOptions file).records = .ok r₀ ∧
      r = begun r₀ (some store) (r₀.mintId env.draw).state.id ∧
      store.options = storeOptions ∧
      store.Holds header (Store.scanFile storeOptions file).records [] ∧
      (storeOptions.recoveryPolicy = .strict → after = []) := by
  obtain ⟨_, hopens⟩ := opens_of_ok hopen
  cases hopens with
  | volatile _ hnone => exact absurd (hs.symm.trans hnone) (by simp)
  | created _ _ hnew => exact absurd hnew hfile.ne_nil
  | @replayed store header found r₀ report _ hreads hold hreplay =>
    obtain rfl := Option.some.inj (hs.symm.trans hreads.stored)
    obtain ⟨opened, hstore⟩ := hreads.outcome
    obtain ⟨after, hsplit, hstrict⟩ := (hfile.under store.options).open_ok hstore
    obtain rfl := hreads.found hold
    exact ⟨report, r₀, store, header, after, hsplit, hreplay, rfl, rfl, hreads.holds, hstrict⟩

/-- The registry that writes the first record of a new log. -/
theorem open_new (hnew : disk.getD [] = []) (hopen : (Registry.open options disk env).2 = .ok r) :
    ∃ r₀ : Registry, r.Using [r₀.imageRecord] ∧ r₀.imageOf.ok = true ∧ r₀.state = r.state ∧
      r.state = { id := r.state.id, openedAt := env.now } ∧ r.state.id.isNil = false := by
  have hnone : ∀ env, Request.reopen env ∉ [] := fun env => List.not_mem_nil
  obtain ⟨hrunning, -, -, hstate⟩ := running_of_open hnew hopen (orderly_of_not_mem hnone)
  obtain ⟨-, records, hsynced, horigin⟩ := Synced.of_open hs hopen
  cases horigin with
  | replayed report r₀ hold => exact absurd hnew hold
  | created r₀ _ himage hok _ hempty _ hminted =>
    subst himage
    refine ⟨r₀, ⟨hsynced.logged, hrunning.wellKeyed, hrunning.indexed⟩, hok,
      hempty.trans hstate.symm, hstate, ?_⟩
    rw [hminted]
    exact isNil_mintId _ _

/-- What an open that fails makes of a log: it may have lost its end. -/
theorem open_error_logFile (hfile : Store.LogFile options' file records)
    (hopen : (Registry.open options (some file) env).2 = .error error) :
    ∃ file' before after, (Registry.open options (some file) env).1 = some file' ∧
      records = before ++ after ∧ Store.LogFile storeOptions file' before := by
  have hopens := opens options (some file) env
  rw [hopen] at hopens
  generalize (Registry.open options (some file) env).1 = left at hopens
  cases hopens with
  | refused => exact ⟨file, records, [], rfl, (List.append_nil _).symm, hfile.under storeOptions⟩
  | unwritten _ hnew => exact absurd hnew hfile.ne_nil
  | @unread store header found hreads =>
    obtain rfl := Option.some.inj (hs.symm.trans hreads.stored)
    obtain ⟨opened, hstore⟩ := hreads.outcome
    obtain ⟨after, hsplit, -⟩ := (hfile.under store.options).open_ok hstore
    obtain rfl := hreads.found hfile.ne_nil
    exact ⟨store.file, _, after, rfl, hsplit, .of_holds hreads.holds⟩

/-- What an open that fails leaves where there was no log: nothing, a log without a record, or
one with the image of an empty state. -/
theorem open_error_new (hnew : disk.getD [] = [])
    (hopen : (Registry.open options disk env).2 = .error error) :
    (Registry.open options disk env).1 = disk ∨
    ∃ file, (Registry.open options disk env).1 = some file ∧
      (Store.LogFile storeOptions file [] ∨
        ∃ r₀ : Registry, r₀.state = { id := r₀.state.id, openedAt := env.now } ∧
          r₀.state.id.isNil = false ∧ r₀.imageOf.ok = true ∧
          Store.LogFile storeOptions file [r₀.imageRecord]) := by
  have hopens := opens options disk env
  rw [hopen] at hopens
  generalize (Registry.open options disk env).1 = left at hopens
  cases hopens with
  | refused => exact .inl rfl
  | unread hreads hfresh =>
    obtain rfl := Option.some.inj (hs.symm.trans hreads.stored)
    obtain rfl := hfresh hnew
    exact .inr ⟨_, rfl, .inl (.of_holds hreads.holds)⟩
  | @unwritten store _ report hreads _ hok =>
    obtain rfl := Option.some.inj (hs.symm.trans hreads.stored)
    refine .inr ⟨_, rfl, ?_⟩
    rcases Store.LogFile.append hreads.holds (length_payload_lt .stateSnapshot _) env.io with
      hold | hone
    · exact .inl hold
    · exact .inr ⟨founder options env report store, rfl, isNil_mintId _ _, hok, hone⟩

end

end Open

/-! ### Lineages -/

/-- Registries that were opened on one disk, one after the other, and what they left there.  Each
of them met a condition on its options and the disk.  A crash may cut a new log inside its
header, end the last request of a registry anywhere, and take away the end of a log. -/
inductive Lineage (c : RegistryOptions → Option (List UInt8) → Prop) :
    List Registry → Option (List UInt8) → Prop
  | fresh {disk : Option (List UInt8)} (h : disk.getD [] = []) : Lineage c [] disk
  | headed {rs : List Registry} {disk : Option (List UInt8)} (h : Lineage c rs disk)
      (hnew : disk.getD [] = []) (n : Nat) : Lineage c rs (some (storeHeader.take n))
  | cut {rs : List Registry} {file : List UInt8} (h : Lineage c rs (some file)) {n : Nat}
      (hn : kHeaderBytes ≤ n) : Lineage c rs (some (file.take n))
  | refused {rs : List Registry} {disk : Option (List UInt8)} (h : Lineage c rs disk)
      {options : RegistryOptions} {storeOptions : StoreOptions} {env : OpenEnv} {error : Error}
      (hs : options.store = some storeOptions)
      (hopen : (Registry.open options disk env).2 = .error error) :
      Lineage c rs (Registry.open options disk env).1
  | lived {rs : List Registry} {disk : Option (List UInt8)} (h : Lineage c rs disk)
      {options : RegistryOptions} {storeOptions : StoreOptions} {env : OpenEnv} {r r' : Registry}
      {requests : List Request} (hs : options.store = some storeOptions) (hc : c options disk)
      (hopen : (Registry.open options disk env).2 = .ok r)
      (hplain : ∀ env, .reopen env ∉ requests) (htidy : ∀ q ∈ requests.dropLast, q.Tidy options)
      (hrun : r.run requests = .ok r') : Lineage c (rs ++ [r]) r'.disk

/-- The log has a first record, which is an image. -/
def Led (records : List StoreRecord) : Prop :=
  ∃ first rest, records = first :: rest ∧ first.kind = .stateSnapshot

theorem Led.grows {r : Registry} {records' : List StoreRecord} (h : Led records)
    (hgrows : Grows r records records') : Led records' := by
  obtain ⟨first, rest, rfl, hkind⟩ := h
  cases hgrows with
  | same => exact ⟨first, rest, rfl, hkind⟩
  | appended record _ => exact ⟨first, rest ++ [record], rfl, hkind⟩
  | rewritten _ => exact ⟨r.imageRecord, [], rfl, rfl⟩

theorem Led.front {before : List StoreRecord} (h : Led (before ++ after)) :
    before = [] ∨ Led before := by
  obtain ⟨first, rest, heq, hkind⟩ := h
  cases before with
  | nil => exact .inl rfl
  | cons record before => exact .inr ⟨record, before, rfl, (List.cons.inj heq).1 ▸ hkind⟩

/-- An open that is not the first one finds a whole record in the log. -/
def FindsRecord (options : RegistryOptions) (disk : Option (List UInt8)) : Prop :=
  disk.getD [] = [] ∨ ∀ storeOptions, options.store = some storeOptions →
    Store.StartsWithRecord storeOptions (disk.getD [])

/-- The property holds of every state without a record. -/
def OfEmpty {α : Type} (I : α → RegistryState → Prop) : Prop :=
  ∀ a id openedAt, I a { id := id, openedAt := openedAt }

/-- A property `I` of the states of registries that is handed on through their logs as a property
`J` of images.  Both are for some parameter. -/
structure Carried {α : Type} (c : RegistryOptions → Option (List UInt8) → Prop)
    (I J : α → RegistryState → Prop) : Prop where
  replays : ∀ a, Replays (J a)
  imaged : ∀ (a : α) {s : RegistryState}, I a s → J a s
  begun : ∀ (a : α) {s : RegistryState}, J a s → I a (clearVolatile s)
  keeps : ∀ (a : α) {limits : Limits} {historyPerKey : UInt32} {s s' : RegistryState} {q : Request}
    {es : List Evidence}, (∀ env, q ≠ .reopen env) → I a s →
    Effect limits historyPerKey s q es s' → I a s'
  minted : ∀ (a : α) {r : Registry} (draw : Id128), J a r.state → J a (r.mintId draw).state
  born : ∀ (id : RegistryId) (openedAt : Timestamp), id.isNil = false →
    ∃ a, I a { id := id, openedAt := openedAt }
  start : OfEmpty J ∨ ∀ options disk, c options disk → FindsRecord options disk

section Carried

variable {α : Type} {c : RegistryOptions → Option (List UInt8) → Prop}
  {I J : α → RegistryState → Prop} {a : α} {options : RegistryOptions} {storeOptions : StoreOptions}
  {env : OpenEnv} {r r' : Registry}

/-- A registry that opens on a log of images with the property has the property. -/
theorem Carried.opened (h : Carried c I J) (hs : options.store = some storeOptions)
    (hfile : Store.LogFile options' file records) (himages : ImagesOf (J a) records)
    (hled : records = [] ∨ Led records ∨ OfEmpty J) (hc : c options (some file))
    (hopen : (Registry.open options (some file) env).2 = .ok r) :
    ∃ before, r.Using before ∧ ImagesOf (J a) before ∧ (Led before ∨ OfEmpty J) ∧ I a r.state := by
  obtain ⟨report, r₀, store, header, after, hsplit, hreplay, rfl, hoptions, hholds, -⟩ :=
    open_logFile hs hfile hopen
  generalize hbefore : (Store.scanFile storeOptions file).records = before at hsplit hreplay hholds
  subst hsplit
  have hled' : Led before ∨ OfEmpty J := by
    rcases h.start with hempty | hfinds
    · exact .inr hempty
    · have hfound : before ≠ [] := by
        have hstarts := ((hfinds options (some file) hc).resolve_left hfile.ne_nil) storeOptions hs
        exact hbefore ▸ (Store.startsWithRecord_iff hfile.length_ge).mp hstarts
      rcases hled with hnil | hled | hempty
      · exact absurd (List.append_eq_nil_iff.mp hnil).1 hfound
      · exact .inl (hled.front.resolve_left hfound)
      · exact .inr hempty
  obtain ⟨hw, hJ⟩ := replayAll_keeps (h.replays a) himages.front
    (show WellKeyed (blank options env.now report).state from .empty _ _) (coveredBy_none _) (by
      intro hother
      rcases hled' with ⟨first, rest, heq, hkind⟩ | hempty
      · exact absurd hkind (hother first rest heq)
      · exact hempty a _ _) hreplay
  have hsynced := Synced.of_replayed (hoptions ▸ hs) hholds hreplay (r₀.mintId env.draw).state.id
  have hminted := h.minted a env.draw hJ
  rw [mintId_eq] at hminted
  exact ⟨before, ⟨hsynced.logged, wellKeyed_begun hw _ _, hsynced.indexed⟩, himages.front, hled',
    h.begun a hminted⟩

/-- What a registry leaves behind has the property it had. -/
theorem Carried.leaves (h : Carried c I J) {records : List StoreRecord} (husing : r.Using records)
    (himages : ImagesOf (J a) records) (hled : Led records ∨ OfEmpty J) (hI : I a r.state)
    {requests : List Request} (hplain : ∀ env, .reopen env ∉ requests)
    (htidy : ∀ q ∈ requests.dropLast, q.Tidy r.options) (hrun : r.run requests = .ok r') :
    ∃ options file records', r'.disk = some file ∧ Store.LogFile options file records' ∧
      ImagesOf (J a) records' ∧ (Led records' ∨ OfEmpty J) := by
  obtain ⟨options, file, records', hdisk, hfile, -, himages', hled'⟩ := husing.leaves
    (Q := fun r records => I a r.state ∧ ImagesOf (J a) records ∧ (Led records ∨ OfEmpty J)) (by
      rintro r r' q records records' hw hi hq hstep hgrows ⟨hI, himages, hled⟩
      exact ⟨h.keeps a hq hI (step_frame hw hi hq hstep).2.2.2, himages.grows hw (h.imaged a hI) hgrows,
        hled.imp_left fun hl => hl.grows hgrows⟩) hplain htidy hrun ⟨hI, himages, hled⟩
  exact ⟨options, file, records', hdisk, hfile, himages', hled'⟩

/-- A registry does not open on a part of a header. -/
theorem open_part (hs : options.store = some storeOptions) (env : OpenEnv) {n : Nat}
    (hn : n < kHeaderBytes) (hdisk : disk.getD [] = storeHeader.take n) :
    (Registry.open options disk env).1 = disk ∧
      (∃ error, (Registry.open options disk env).2 = .error error) ∨ disk.getD [] = [] := by
  have hreads : ∀ {store header records}, ReadsLog options disk store header records →
      disk.getD [] = [] := by
    rintro store header records ⟨-, ⟨opened, hopen⟩, -⟩
    refine (Store.usable_of_open hopen).2.resolve_right ?_
    rintro ⟨header, rest, hh, rfl⟩
    have hlen := congrArg List.length hdisk
    rw [Option.getD_some, List.length_append, hh.length, List.length_take] at hlen
    omega
  have hopens := opens options disk env
  generalize Registry.open options disk env = result at hopens ⊢
  obtain ⟨left, outcome⟩ := result
  cases hopens with
  | refused error => exact .inl ⟨rfl, error, rfl⟩
  | volatile _ hnone => exact absurd (hs.symm.trans hnone) (by simp)
  | unread h => exact .inr (hreads h)
  | replayed _ h => exact .inr (hreads h)
  | unwritten _ hnew => exact .inr hnew
  | created _ _ hnew => exact .inr hnew

/-- A log without a record. -/
theorem logFile_storeHeader : Store.LogFile Store.sampleOptions storeHeader [] :=
  .of_holds Store.holds_sampleStore

/-- **What a lineage leaves on its disk**: no more than a part of a header, or a log whose images
have the property that all its registries had when they were opened. -/
theorem Carried.lineage (h : Carried c I J) {rs : List Registry} {disk : Option (List UInt8)}
    (hl : Lineage c rs disk) :
    (rs = [] ∧ ∃ n, n < kHeaderBytes ∧ disk.getD [] = storeHeader.take n) ∨
    ∃ a options file records, disk = some file ∧ Store.LogFile options file records ∧
      ImagesOf (J a) records ∧ (records = [] ∨ Led records ∨ OfEmpty J) ∧ ∀ r ∈ rs, I a r.state := by
  have hbare : ∃ a, I a { id := ⟨randomId128 ⟨0, 0⟩⟩, openedAt := 0 } :=
    h.born _ _ (isNil_randomId128 _)
  have himage : ∀ (r₀ : Registry) (now : Timestamp), r₀.imageOf.ok = true → ∀ a,
      r₀.state = { id := r₀.state.id, openedAt := now } → I a r₀.state →
      ImagesOf (J a) [r₀.imageRecord] := by
    intro r₀ now hok a hempty hI record hmem _
    exact ⟨r₀, hempty ▸ .empty _ _, h.imaged a hI, hok, List.mem_singleton.mp hmem⟩
  have hfront : ∀ before after, (before ++ after = [] ∨ Led (before ++ after) ∨ OfEmpty J) →
      (before = [] ∨ Led before ∨ OfEmpty J) := by
    rintro before after (hnil | hled | hempty)
    · exact .inl (List.append_eq_nil_iff.mp hnil).1
    · exact hled.front.imp_right .inl
    · exact .inr (.inr hempty)
  induction hl with
  | fresh hnew => exact .inl ⟨rfl, 0, by decide, by rw [hnew, List.take_zero]⟩
  | @headed rs disk _ hnew n ih =>
    rcases ih with ⟨hrs, -⟩ | ⟨a, options, file, records, rfl, hfile, -⟩
    · by_cases hn : n < kHeaderBytes
      · exact .inl ⟨hrs, n, hn, rfl⟩
      · obtain ⟨a, -⟩ := hbare
        refine .inr ⟨a, Store.sampleOptions, _, [], rfl, ?_, by simp [ImagesOf], .inl rfl, by simp [hrs]⟩
        rw [List.take_of_length_le (Store.headerOk_storeHeader.length ▸ Nat.not_lt.mp hn)]
        exact logFile_storeHeader
    · exact absurd hnew hfile.ne_nil
  | @cut rs file _ n hn ih =>
    rcases ih with ⟨hrs, m, hm, hpart⟩ | ⟨a, options, file', records, heq, hfile, himages, hled, hall⟩
    · refine .inl ⟨hrs, m, hm, ?_⟩
      have hpart' : file = storeHeader.take m := hpart
      rw [Option.getD_some, hpart', List.take_take, Nat.min_eq_right (by omega)]
    · obtain rfl := Option.some.inj heq
      obtain ⟨before, after, rfl, hcut⟩ := hfile.take hn
      exact .inr ⟨a, options, _, before, rfl, hcut, himages.front, hfront before after hled, hall⟩
  | @refused rs disk _ options storeOptions env error hs hopen ih =>
    rcases ih with ⟨hrs, n, hn, hpart⟩ | ⟨a, options', file, records, rfl, hfile, himages, hled, hall⟩
    · rcases open_part hs env hn hpart with ⟨hsame, -⟩ | hnew
      · exact .inl ⟨hrs, n, hn, by rw [hsame, hpart]⟩
      rcases open_error_new hs hnew hopen with hsame |
        ⟨file, hdisk, hfile | ⟨r₀, hempty, hid, hok, hfile⟩⟩
      · exact .inl ⟨hrs, n, hn, by rw [hsame, hpart]⟩
      · obtain ⟨a, -⟩ := hbare
        exact .inr ⟨a, _, file, [], hdisk, hfile, by simp [ImagesOf], .inl rfl, by simp [hrs]⟩
      · obtain ⟨a, hI⟩ := h.born r₀.state.id env.now hid
        exact .inr ⟨a, _, file, _, hdisk, hfile, himage r₀ env.now hok a hempty (hempty ▸ hI),
          .inr (.inl ⟨_, [], rfl, rfl⟩), by simp [hrs]⟩
    · obtain ⟨file', before, after, hdisk, rfl, hfile'⟩ := open_error_logFile hs hfile hopen
      exact .inr ⟨a, storeOptions, file', before, hdisk, hfile', himages.front,
        hfront before after hled, hall⟩
  | @lived rs disk _ options storeOptions env r r' requests hs hc hopen hplain htidy hrun ih =>
    rcases ih with ⟨hrs, n, hn, hpart⟩ | ⟨a, options', file, records, rfl, hfile, himages, hled, hall⟩
    · have hnew := (open_part hs env hn hpart).resolve_left fun h => by simp [hopen] at h
      have hoptions := (Synced.of_open hs hopen).1
      obtain ⟨r₀, husing, hok, hsame, hempty, hid⟩ := open_new hs hnew hopen
      obtain ⟨a, hI⟩ := h.born r.state.id env.now hid
      rw [← hempty] at hI
      obtain ⟨options', file, records', hdisk, hfile, himages, hled⟩ := h.leaves husing
        (himage r₀ env.now hok a (by rw [hsame]; exact hempty) (by rw [hsame]; exact hI))
        (.inl ⟨_, [], rfl, rfl⟩) hI hplain (hoptions ▸ htidy) hrun
      exact .inr ⟨a, options', file, records', hdisk, hfile, himages, .inr hled, by simpa [hrs] using hI⟩
    · have hoptions := (Synced.of_open hs hopen).1
      obtain ⟨before, husing, himages', hled', hI⟩ := h.opened hs hfile himages hled hc hopen
      obtain ⟨options'', file', records', hdisk, hfile', himages'', hled''⟩ :=
        h.leaves husing himages' hled' hI hplain (hoptions ▸ htidy) hrun
      refine .inr ⟨a, options'', file', records', hdisk, hfile', himages'', .inr hled'', ?_⟩
      rw [List.forall_mem_append]
      exact ⟨hall, by simpa using hI⟩

end Carried

/-! ### Identity -/

/-- An effect other than that of a reopen keeps the identity. -/
theorem id_of_effect {limits : Limits} {historyPerKey : UInt32} {s' : RegistryState}
    {es : List Evidence} (hq : ∀ env, q ≠ .reopen env) (h : Effect limits historyPerKey s q es s') :
    s'.id = s.id := by
  cases h with
  | nothing => rfl
  | opened => rfl
  | touched => rfl
  | accepted t io ha =>
    obtain ⟨session, rfl⟩ := ha.state
    exact (applyChange_frame historyPerKey s _).id
  | restarted env => exact absurd rfl (hq env)

/-- An identity is handed on, where every open finds the record that has it. -/
theorem carried_identity : Carried FindsRecord
    (fun (id : RegistryId) s => s.id = id ∧ id.isNil = false) fun id s => s.id = id ∧ id.isNil = false where
  imaged := fun _ _ h => h
  begun := fun _ _ h => h
  replays := by
    intro id
    refine ⟨fun h => h, fun _ _ _ h => h, ?_, ?_⟩
    · intro s key h
      rcases applySessionClose_cases s key with hsame | ⟨-, session, hsame⟩
      · rw [hsame]
        exact h
      · rw [hsame]
        exact h
    · intro r e t _ _ h
      rw [(r.ingestLocked_frame e t false false .written).1.id]
      exact h
  keeps := by
    intro id limits historyPerKey s s' q es hq h heffect
    rw [id_of_effect hq heffect]
    exact h
  minted := by
    rintro id r draw ⟨rfl, hid⟩
    refine ⟨?_, hid⟩
    rw [mintId_id, hid]
    rfl
  born := fun id _ hid => ⟨id, rfl, hid⟩
  start := .inr fun _ _ h => h

/-- **A registry keeps its identity.**  Registries are opened on one disk one after the other,
whatever their options, and any of them may end in a crash.  If each of them finds either no log
or one that starts with a whole record, they all have the same identity. -/
theorem identity_kept {rs : List Registry} {disk : Option (List UInt8)}
    (h : Lineage FindsRecord rs disk) : ∀ r ∈ rs, ∀ r' ∈ rs, r.state.id = r'.state.id := by
  rcases carried_identity.lineage h with ⟨rfl, -⟩ | ⟨id, -, -, -, -, -, -, -, hall⟩
  · simp
  · intro r hr r' hr'
    rw [(hall r hr).1, (hall r' hr').1]

/-- A registry leaves a record for the next one to find. -/
theorem Using.findsRecord {r : Registry} (h : r.Using (record :: records)) :
    FindsRecord r.options r.disk := by
  obtain ⟨store, header, hs, hoptions, hholds⟩ := h.logged
  refine .inr fun storeOptions hstore => ?_
  obtain rfl := Option.some.inj (hstore.symm.trans hoptions)
  have hfile := hholds.file
  rw [show Store.frames store.options (record :: records) = recordFrame logStart record ++ _ from rfl,
    List.append_nil, ← List.append_assoc] at hfile
  rw [Registry.disk, hs]
  exact ⟨header, record, _, hholds.headerOk.length, hholds.fits record List.mem_cons_self, hfile⟩

/-- Two registries, the second of which ends in a crash. -/
theorem identity_kept_crash : ∃ r₀ r₁ disk, Lineage FindsRecord [r₀, r₁] disk ∧
    r₀.state.id = r₁.state.id := by
  obtain ⟨r₀, r, hopen, hrun⟩ := exists_of_isOk_run (show ((Registry.open sampleStore none
    ⟨0, ⟨1, 2⟩, .written⟩).2 >>= fun r => r.run []).isOk = true by decide +kernel)
  obtain rfl : r₀ = r := Except.ok.inj hrun
  obtain ⟨image, husing, -⟩ := open_new rfl rfl hopen
  obtain ⟨hoptions, records, hsynced, horigin⟩ := Synced.of_open rfl hopen
  obtain ⟨id, hrestorable, -⟩ := Restorable.of_origin hoptions horigin
  have hcheck := checked_of_open hopen
  obtain ⟨r₁, hopen₁, -⟩ := hrestorable.reopen hsynced (hoptions ▸ hcheck) ⟨9, ⟨3, 4⟩, .written⟩
  rw [hoptions] at hopen₁
  have hfinds := husing.findsRecord
  rw [hoptions] at hfinds
  have hfirst : Lineage FindsRecord [r₀] r₀.disk :=
    .lived (.fresh rfl) rfl (.inl rfl) hopen (by simp) (by simp) hrun
  have hcrash : r₁.run [.openSession {} 1 1 2 (.torn 10 "power lost")] =
      .ok (r₁.openSession {} 1 1 2 (.torn 10 "power lost")).1 := rfl
  have hboth := hfirst.lived rfl hfinds hopen₁ (by simp) (by simp) hcrash
  exact ⟨r₀, r₁, _, hboth, identity_kept hboth r₀ (by simp) r₁ (by simp)⟩

/-- A registry that is opened on a log without a record draws its identity and leaves the log as
it is. -/
theorem exists_open_storeHeader {env : OpenEnv} {id : RegistryId}
    (h : (Registry.open sampleStore (some storeHeader) env).2.toOption.map
      (fun r => (r.state.id, r.disk)) = some (id, some storeHeader)) :
    ∃ r, (Registry.open sampleStore (some storeHeader) env).2 = .ok r ∧ r.state.id = id ∧
      r.disk = some storeHeader := by
  cases hopen : (Registry.open sampleStore (some storeHeader) env).2 with
  | error error =>
    rw [hopen] at h
    exact absurd h (by simp [Except.toOption])
  | ok r =>
    rw [hopen] at h
    obtain ⟨hid, hdisk⟩ := Prod.mk.inj (Option.some.inj h)
    exact ⟨r, rfl, hid, hdisk⟩

/-- The first record of a log is lost in a crash, and each registry that is opened on the log draws
an identity that it does not write down. -/
theorem identity_drawn_again :
    ∃ r₀ r₁ disk, Lineage (fun options _ => options.id.isNil = true) [r₀, r₁] disk ∧
      r₀.state.id ≠ r₁.state.id := by
  have hlost : (Registry.open sampleStore none ⟨0, ⟨1, 2⟩, .torn 0 "power lost"⟩).1 =
      some storeHeader := by decide +kernel
  have herror : (Registry.open sampleStore none ⟨0, ⟨1, 2⟩, .torn 0 "power lost"⟩).2 =
      .error ⟨.persistenceFailure, "power lost"⟩ := rfl
  have hcrash : Lineage (fun options _ => options.id.isNil = true) [] (some storeHeader) :=
    hlost ▸ .refused (.fresh rfl) rfl herror
  obtain ⟨r₀, hopen₀, hid₀, hdisk₀⟩ := exists_open_storeHeader
    (show (Registry.open sampleStore (some storeHeader) ⟨1, ⟨1, 2⟩, .written⟩).2.toOption.map
      (fun r => (r.state.id, r.disk)) = some (⟨⟨1, 2⟩⟩, some storeHeader) by decide +kernel)
  obtain ⟨r₁, hopen₁, hid₁, hdisk₁⟩ := exists_open_storeHeader
    (show (Registry.open sampleStore (some storeHeader) ⟨2, ⟨3, 4⟩, .written⟩).2.toOption.map
      (fun r => (r.state.id, r.disk)) = some (⟨⟨3, 4⟩⟩, some storeHeader) by decide +kernel)
  have hrun₀ : r₀.run [] = .ok r₀ := rfl
  have hrun₁ : r₁.run [] = .ok r₁ := rfl
  have hfirst := hcrash.lived rfl rfl hopen₀ (by simp) (by simp) hrun₀
  rw [hdisk₀] at hfirst
  refine ⟨r₀, r₁, _, hfirst.lived rfl rfl hopen₁ (by simp) (by simp) hrun₁, ?_⟩
  rw [hid₀, hid₁]
  decide

end Registry

end CableRegistry
