import CableRegistry.Refusals

/-!
# The history of a run

What a registry holds is often to be compared with what happened to it: which sessions were
opened and closed, which records were accepted, and when the registry was opened again.  An
`Event` is one of these, `Registry.events` are those of a run, and `Happens` says what each of
them does to the state.  `Chronicled.induction` proves what holds of a state and of the events
that led to it.

* `Registry.Chronicled.sessionLive_eq`: a session is marked live exactly when it was opened since
  the registry was last opened and not closed since.
-/

open Std

namespace CableRegistry

/-! ### Events -/

/-- What a request makes happen. -/
inductive Event where
  | opened (descriptor : SourceDescriptor) (incarnation : Incarnation)
  | closed (key : SourceIncarnationKey)
  | accepted (evidence : Evidence) (disposition : IngestDisposition)
  | restarted
  deriving DecidableEq

/-- The record that an event accepts, if it is one. -/
def Event.record : Event → List Evidence
  | .accepted e _ => [e]
  | _ => []

namespace Registry

def eventsBy (r : Registry) : Request → List Event
  | .openSession d i t t' io =>
    if (r.openSession d i t t' io).2.disposition.isOpen then [.opened d i] else []
  | .closeSession key io => if (r.closeSession key io).2.isOk then [.closed key] else []
  | .ingest e t io =>
    if (r.ingest e t io).2.disposition.isAccepted then
      [.accepted e (r.ingest e t io).2.disposition] else []
  | .compact _ => []
  | .reopen _ => [.restarted]

/-- The events of a run, in order. -/
def events (r : Registry) : List Request → List Event
  | [] => []
  | q :: requests =>
    match r.step q with
    | .error _ => []
    | .ok r' => r.eventsBy q ++ r'.events requests

end Registry

/-! ### What an event does -/

/-- No session is marked live or stops being so. -/
def SameLive (s s' : RegistryState) : Prop :=
  ∀ key : SourceIncarnationKey, (s'.sessions[key]?).map (·.live) = (s.sessions[key]?).map (·.live)

/-- What a request does to a state, and what it makes happen. -/
inductive Happens (limits : Limits) (historyPerKey : UInt32) (s : RegistryState) :
    Request → List Event → RegistryState → Prop
  | nothing (q : Request) : Happens limits historyPerKey s q [] s
  | opened (d : SourceDescriptor) (i : Incarnation) (t t' : Timestamp) (io : Store.AppendIo)
      (h : Registry.Admissible s limits d i) :
      Happens limits historyPerKey s (.openSession d i t t' io) [.opened d i]
        (Registry.openState s d i t')
  | closed (key : SourceIncarnationKey) (io : Store.AppendIo) (session : SessionRecord)
      (h : s.sessions[key]? = some session) :
      Happens limits historyPerKey s (.closeSession key io) [.closed key]
        { s with sessions := s.sessions.insert key { session with live := false, closed := true } }
  | counted (e : Evidence) (t : Timestamp) (io : Store.AppendIo) (session : SessionRecord)
      (h : s.sessions.contains e.key = true)
      (hlive : SameLive s { s with sessions := s.sessions.insert e.key session }) :
      Happens limits historyPerKey s (.ingest e t io) []
        { s with sessions := s.sessions.insert e.key session }
  | accepted {e : Evidence} {m : Attestation} {s' : RegistryState} (t : Timestamp)
      (io : Store.AppendIo) (d : IngestDisposition) (h : Accepts limits historyPerKey s e m s')
      (hlive : SameLive s s') (hdup : d = .duplicate → ∀ k, s'.lookup k = s.lookup k) :
      Happens limits historyPerKey s (.ingest e t io) [.accepted e d] s'
  | restarted (env : Registry.OpenEnv) (s₀ : RegistryState) (h : s₀.core = s.core) :
      Happens limits historyPerKey s (.reopen env) [.restarted] (clearVolatile s₀)

variable {limits : Limits} {evs evs' : List Event} {requests : List Request} {r r₁ : Registry}
  {options : RegistryOptions} {s s' : RegistryState} {c : RegistryState → Request → Bool}
  {q : Request} {historyPerKey : UInt32}

theorem Happens.trace (h : Happens limits historyPerKey s q evs s') :
    Trace limits historyPerKey s (evs.flatMap Event.record) s' := by
  cases h with
  | nothing => exact .nil
  | opened d i t t' io h => exact Trace.nil.quiet (.opened d i t' h)
  | closed key io session h =>
    refine Trace.nil.quiet (.touched key _ ?_)
    rw [ExtTreeMap.contains_eq_isSome_getElem?, h]
    rfl
  | counted e t io session h => exact Trace.nil.quiet (.touched e.key session h)
  | accepted t io d h => exact Trace.nil.accepts h
  | restarted env s₀ h => exact Trace.nil.quiet (.restarted s₀ h)

/-- A record of the history was accepted earlier, or by the request that has just been made. -/
theorem Happens.accepted_cases {limits : Limits} {historyPerKey : UInt32} {s s' : RegistryState}
    {q : Request} {evs evs' before after : List Event} {e : Evidence} {d : IngestDisposition}
    (h : Happens limits historyPerKey s q evs' s')
    (heq : evs ++ evs' = before ++ .accepted e d :: after) :
    (∃ after', evs = before ++ .accepted e d :: after') ∨
      (before = evs ∧ (∃ t io, q = .ingest e t io) ∧ ∃ m, Accepts limits historyPerKey s e m s') := by
  rcases List.append_eq_append_iff.mp heq with ⟨l, rfl, hl⟩ | ⟨l, rfl, hl⟩
  · cases h with
    | accepted t io d' ha =>
      cases l with
      | nil =>
        obtain ⟨heq', -⟩ := List.cons.inj hl
        obtain ⟨rfl, rfl⟩ := Event.accepted.inj heq'
        exact .inr ⟨List.append_nil _, ⟨t, io, rfl⟩, _, ha⟩
      | cons a l => simp at hl
    | _ => cases l <;> simp at hl
  · cases l with
    | nil =>
      rw [List.nil_append] at hl
      cases h with
      | accepted t io d' ha =>
        obtain ⟨heq', -⟩ := List.cons.inj hl
        obtain ⟨rfl, rfl⟩ := Event.accepted.inj heq'
        exact .inr ⟨(List.append_nil _).symm, ⟨t, io, rfl⟩, _, ha⟩
      | _ => simp at hl
    | cons a l =>
      obtain ⟨rfl, -⟩ := List.cons.inj hl
      exact .inl ⟨l, rfl⟩

namespace Registry

theorem live_countRecord (session : SessionRecord) (g : Generation) (d : IngestDisposition) :
    (countRecord session g d).live = session.live := by
  unfold countRecord
  dsimp only
  split <;> split <;> rfl

/-- Evidence opens no session and closes none. -/
theorem sameLive_ingest (r : Registry) (e : Evidence) (t : Timestamp) (io : Store.AppendIo) :
    SameLive r.state (r.ingest e t io).1.state := by
  have hi := r.ingests e t true true io
  unfold ingest
  generalize r.ingestLocked e t true true io = answer at hi ⊢
  cases hi with
  | stopping _ => exact fun _ => rfl
  | refused _ _ => exact fun _ => rfl
  | decided _ hm hc =>
    obtain ⟨-, -, hsession⟩ := admitRecord_eq_ok hm
    intro key
    rw [(conclude_spec e true _ _).1, hc.sessions]
    dsimp only
    rw [OrdMap.find_insert]
    split
    · rename_i hkey
      subst hkey
      rw [ExtTreeMap.contains_eq_isSome_getElem?, Option.isSome_iff_exists] at hsession
      obtain ⟨session, hsession⟩ := hsession
      rw [Option.map_some, live_countRecord, ExtTreeMap.getD_eq_getD_getElem?, hsession]
      rfl
    · rfl

/-- A session that is closed was there and is marked so; otherwise nothing changes. -/
theorem closed_or_kept (r : Registry) (key : SourceIncarnationKey) (io : Store.AppendIo) :
    ((r.closeSession key io).2.isOk = true ∧ ∃ session, r.state.sessions[key]? = some session ∧
      (r.closeSession key io).1.state = { r.state with
        sessions := r.state.sessions.insert key { session with live := false, closed := true } }) ∨
    ((r.closeSession key io).2.isOk = false ∧ (r.closeSession key io).1.state = r.state) := by
  obtain ⟨r', hwrote, ⟨hs, heq⟩ | ⟨heq, hfailed⟩⟩ := r.closeSession_eq key io
  · rw [ExtTreeMap.contains_eq_isSome_getElem?, Option.isSome_iff_exists] at hs
    obtain ⟨session, hsession⟩ := hs
    rw [heq]
    refine .inl ⟨rfl, session, hsession, ?_⟩
    dsimp only [applySessionClose]
    rw [hsession]
  · rw [heq]
    exact .inr ⟨hfailed, hwrote.state⟩

/-- **What a request makes happen.** -/
theorem Running.happens (h : r.Running (q :: requests)) (hstep : r.step q = .ok r₁) :
    Happens r.limits r.historyPerKey r.state q (r.eventsBy q) r₁.state := by
  cases q with
  | openSession d i t t' io =>
    obtain rfl := Except.ok.inj hstep
    simp only [eventsBy]
    obtain ⟨-, ⟨hopen, hadm, hstate⟩ | ⟨hopen, hstate⟩⟩ := r.openSession_spec d i t t' io
    · rw [hopen, hstate, if_pos rfl]
      exact .opened d i t t' io (admitSession_eq_ok hadm)
    · rw [hopen, hstate, if_neg (by simp)]
      exact .nothing _
  | closeSession key io =>
    obtain rfl := Except.ok.inj hstep
    simp only [eventsBy]
    rcases r.closed_or_kept key io with ⟨hok, session, hsession, hstate⟩ | ⟨hok, hstate⟩
    · rw [hok, hstate, if_pos rfl]
      exact .closed key io session hsession
    · rw [hok, hstate, if_neg (by simp)]
      exact .nothing _
  | ingest e t io =>
    obtain rfl := Except.ok.inj hstep
    have hlive := r.sameLive_ingest e t io
    simp only [eventsBy]
    cases hd : (r.ingest e t io).2.disposition.isAccepted with
    | true =>
      rcases accepts_or_counted h.indexed e t io with ⟨-, m, ha⟩ | ⟨hnone, -⟩
      · refine .accepted t io _ ha hlive fun hdup k => ?_
        obtain ⟨⟨sessions, hstate⟩, -⟩ := ingest_kept (.inr hdup)
        rw [hstate, lookup_sessions]
      · exact absurd hnone (by simp [acceptedBy, hd])
    | false =>
      rw [if_neg (by simp)]
      rcases ingestLocked_refused hd with hstate | ⟨hs, session, hstate⟩
      · rw [show (r.ingest e t io).1.state = r.state from hstate]
        exact .nothing _
      · rw [show (r.ingest e t io).1.state = _ from hstate] at hlive ⊢
        exact .counted e t io session hs hlive
  | compact io =>
    obtain rfl := Except.ok.inj hstep
    rw [(r.wrote_compact io).state]
    exact .nothing _
  | reopen env =>
    rcases h.logged with ⟨records, hs⟩ | hnone
    · obtain ⟨-, -, s₀, hstate, hcore⟩ := hs.reopen hstep
      rw [hstate]
      exact .restarted env s₀ hcore
    · exact absurd List.mem_cons_self (hnone env)

/-! ### Runs and their events -/

/-- The registry is reached by a run whose requests all meet a condition and to which the given
events happened. -/
def Chronicled (c : RegistryState → Request → Bool) (r : Registry) (options : RegistryOptions)
    (requests : List Request) (evs : List Event) : Prop :=
  Orderly options requests ∧ ∃ disk env r₀, disk.getD [] = [] ∧
    (Registry.open options disk env).2 = .ok r₀ ∧ r₀.run requests = .ok r ∧
    r₀.events requests = evs ∧ r₀.meets c requests = true

/-- What every event of a run keeps, from a registry in the middle of the run. -/
theorem Running.along {c : RegistryState → Request → Bool} {limits : Limits}
    {historyPerKey : UInt32} {motive : List Event → RegistryState → Prop}
    (step : ∀ {evs s q evs' s'}, WellKeyed s → c s q = true → motive evs s →
      Happens limits historyPerKey s q evs' s' → motive (evs ++ evs') s')
    {r r₁ : Registry} {requests : List Request} {evs : List Event} (h : r.Running requests)
    (hlimits : r.limits = limits) (hhistory : r.historyPerKey = historyPerKey)
    (hm : motive evs r.state) (hmeets : r.meets c requests = true) (hrun : r.run requests = .ok r₁) :
    motive (evs ++ r.events requests) r₁.state := by
  induction requests generalizing r evs with
  | nil =>
    obtain rfl : r = r₁ := Except.ok.inj hrun
    rw [show r.events [] = [] from rfl, List.append_nil]
    exact hm
  | cons q requests ih =>
    obtain ⟨r₂, hstep, hrun⟩ := foldlM_cons_eq_ok.mp hrun
    simp only [events, hstep]
    unfold meets at hmeets
    rw [Bool.and_eq_true] at hmeets
    obtain ⟨hq, hrest⟩ := hmeets
    rw [hstep] at hrest
    obtain ⟨hrunning, hcfg, -⟩ := h.step hstep
    have hhappens := h.happens hstep
    rw [hlimits, hhistory] at hhappens
    rw [← List.append_assoc]
    exact ih hrunning (hcfg.limits.trans hlimits) (hcfg.historyPerKey.trans hhistory)
      (step h.wellKeyed hq hm hhappens) hrest hrun

theorem Running.chronicle {c : RegistryState → Request → Bool} {limits : Limits}
    {historyPerKey : UInt32} {motive : List Event → RegistryState → Prop}
    (step : ∀ {evs s q evs' s'}, Consistent limits (evs.flatMap Event.record) s → WellKeyed s →
      c s q = true → motive evs s → Happens limits historyPerKey s q evs' s' → motive (evs ++ evs') s')
    {r r₁ : Registry} {requests : List Request} {evs : List Event} (h : r.Running requests)
    (hlimits : r.limits = limits) (hhistory : r.historyPerKey = historyPerKey)
    (hc : Consistent limits (evs.flatMap Event.record) r.state) (hm : motive evs r.state)
    (hmeets : r.meets c requests = true) (hrun : r.run requests = .ok r₁) :
    motive (evs ++ r.events requests) r₁.state := by
  refine (h.along (motive := fun evs s =>
    Consistent limits (evs.flatMap Event.record) s ∧ motive evs s) ?_ hlimits hhistory ⟨hc, hm⟩ hmeets
    hrun).2
  rintro evs s q evs' s' hw hq ⟨hc, hm⟩ hhappens
  refine ⟨?_, step hc hw hq hm hhappens⟩
  rw [List.flatMap_append]
  exact hc.trace hhappens.trace

/-- **What holds of the empty state and is kept by every event holds of every state that is
reached and of the events that led to it.** -/
theorem Chronicled.induction {c : RegistryState → Request → Bool} {r : Registry}
    {options : RegistryOptions} {requests : List Request} {evs : List Event}
    (h : r.Chronicled c options requests evs) {motive : List Event → RegistryState → Prop}
    (empty : ∀ id openedAt, motive [] { id := id, openedAt := openedAt })
    (step : ∀ {evs s q evs' s'}, Consistent r.limits (evs.flatMap Event.record) s → WellKeyed s →
      c s q = true → motive evs s → Happens r.limits r.historyPerKey s q evs' s' →
      motive (evs ++ evs') s') : motive evs r.state := by
  obtain ⟨horderly, disk, env, r₀, hfresh, hopen, hrun, hevs, hmeets⟩ := h
  obtain ⟨hrunning, -, -, hstate⟩ := running_of_open hfresh hopen horderly
  have hrunning' : r₀.Running (requests ++ []) := by
    rw [List.append_nil]
    exact hrunning
  obtain ⟨-, hcfg, -⟩ := hrunning'.run hrun
  have hconsistent : Consistent r.limits (([] : List Event).flatMap Event.record) r₀.state := by
    rw [hstate]
    exact .empty _ _ _
  have hinitial : motive [] r₀.state := by
    rw [hstate]
    exact empty _ _
  rw [← hevs]
  exact hrunning.chronicle step hcfg.limits.symm hcfg.historyPerKey.symm hconsistent hinitial hmeets hrun

end Registry

/-! ### Sessions -/

/-- The session was opened since the registry was last opened, and not closed since. -/
def openedIn (key : SourceIncarnationKey) (evs : List Event) : Bool :=
  evs.foldl (fun isOpen event =>
    match event with
    | .opened d i => isOpen || key == ⟨d.id, i⟩
    | .closed key' => isOpen && key != key'
    | .accepted _ _ => isOpen
    | .restarted => false) false

theorem openedIn_append (key : SourceIncarnationKey) (evs : List Event) (event : Event) :
    openedIn key (evs ++ [event]) =
      match event with
      | .opened d i => openedIn key evs || key == ⟨d.id, i⟩
      | .closed key' => openedIn key evs && key != key'
      | .accepted _ _ => openedIn key evs
      | .restarted => false := by
  unfold openedIn
  rw [List.foldl_append]
  rfl

/-- The session is marked live. -/
def sessionLive (s : RegistryState) (key : SourceIncarnationKey) : Bool :=
  (s.sessions[key]?).any (·.live)

theorem sessionLive_openState (s : RegistryState) (d : SourceDescriptor) (i : Incarnation)
    (t : Timestamp) (key : SourceIncarnationKey) :
    sessionLive (Registry.openState s d i t) key = (sessionLive s key || key == ⟨d.id, i⟩) := by
  simp only [sessionLive, Registry.openState, Registry.makeLive, Registry.applySessionOpen,
    OrdMap.find_insert]
  by_cases hk : (⟨d.id, i⟩ : SourceIncarnationKey) = key
  · subst hk
    simp
  · have hne : (key == ⟨d.id, i⟩) = false := by simpa using fun heq => hk heq.symm
    simp [hk, hne]

theorem SameLive.sessionLive_eq (h : SameLive s s') (key : SourceIncarnationKey) :
    sessionLive s' key = sessionLive s key := by
  have hkey := h key
  unfold sessionLive
  cases hs : s.sessions[key]? <;> cases hs' : s'.sessions[key]? <;> simp_all

theorem sessionLive_clearVolatile (s : RegistryState) (key : SourceIncarnationKey) :
    sessionLive (clearVolatile s) key = false := by
  simp only [sessionLive, clearVolatile, RegistryState.blur, ExtTreeMap.getElem?_map]
  cases s.sessions[key]? <;> rfl

/-- The mark follows the events. -/
theorem Happens.sessionLive_eq (h : Happens limits historyPerKey s q evs' s')
    (hs : ∀ key, sessionLive s key = openedIn key evs) (key : SourceIncarnationKey) :
    sessionLive s' key = openedIn key (evs ++ evs') := by
  cases h with
  | nothing => rw [List.append_nil, hs]
  | opened d i t t' io hadm => rw [openedIn_append, sessionLive_openState, hs]
  | closed key' io session hsession =>
    rw [openedIn_append, ← hs]
    simp only [sessionLive, OrdMap.find_insert]
    by_cases hk : key' = key
    · subst hk
      simp
    · have hne : (key != key') = true := by simpa using fun heq => hk heq.symm
      simp [hk, hne]
  | counted e t io session hsession hlive => rw [List.append_nil, hlive.sessionLive_eq, hs]
  | accepted t io d ha hlive => rw [openedIn_append, hlive.sessionLive_eq, hs]
  | restarted env s₀ hcore => rw [openedIn_append, sessionLive_clearVolatile]

/-! ### Evidence and its session -/

/-- A record that is ingested has no session at all or one that is marked live. -/
def noDeadSession (s : RegistryState) : Request → Bool
  | .ingest e _ _ => !s.sessions.contains e.key || sessionLive s e.key
  | _ => true

/-- **Where no record comes from a session that is closed or merely recovered, every record
that is accepted comes from a session that was opened since the registry was last opened and
not closed since.** -/
theorem accepted_opened {r : Registry} {options : RegistryOptions} {requests : List Request}
    {evs : List Event} (h : r.Chronicled noDeadSession options requests evs) :
    ∀ before e d after, evs = before ++ .accepted e d :: after → openedIn e.key before = true := by
  have hboth : (∀ key, sessionLive r.state key = openedIn key evs) ∧
      ∀ before e d after, evs = before ++ .accepted e d :: after → openedIn e.key before = true := by
    refine h.induction (motive := fun evs s => (∀ key, sessionLive s key = openedIn key evs) ∧
      ∀ before e d after, evs = before ++ .accepted e d :: after → openedIn e.key before = true)
      (fun id openedAt => ⟨fun key => by simp [openedIn, sessionLive], by simp⟩) ?_
    intro evs s q evs' s' _ _ hq hs hhappens
    refine ⟨hhappens.sessionLive_eq hs.1, ?_⟩
    intro before e d after heq
    rcases hhappens.accepted_cases heq with ⟨after', hbefore⟩ | ⟨rfl, ⟨t, io, rfl⟩, m, ha⟩
    · exact hs.2 before e d after' hbefore
    · rw [← hs.1]
      simpa [noDeadSession, ha.session] using hq
  exact hboth.2

/-- A run that can be carried out, with what can be computed of the registry it ends in and of
its events. -/
theorem Registry.exists_chronicled (c : RegistryState → Request → Bool) (options : RegistryOptions)
    (requests : List Request) (p : Registry → List Event → Bool)
    (h : (requests.all (!isReopen ·) &&
      (Registry.open options none ⟨0, ⟨1, 2⟩, .written⟩).2.toOption.any fun r₀ =>
        (r₀.run requests).toOption.any fun r =>
          r₀.meets c requests && p r (r₀.events requests)) = true) :
    ∃ r evs, r.Chronicled c options requests evs ∧ p r evs = true := by
  obtain ⟨r₀, r, horderly, hopen, hrun, hp⟩ :=
    exists_run options requests (fun r₀ r => r₀.meets c requests && p r (r₀.events requests)) h
  obtain ⟨hmeets, hp⟩ := Bool.and_eq_true_iff.mp hp
  exact ⟨r, _, ⟨horderly, none, _, r₀, rfl, hopen, hrun, rfl, hmeets⟩, hp⟩

/-- A source registers an object after the given request. -/
def sampleLate (q : Request) : List Request :=
  [Registry.sampleOpen 1 1 5, q, Registry.sampleIngest 1 1 1 (Registry.sampleObject 9)]

/-- The record that registers object 9. -/
def sampleLateRecord : Evidence := Registry.sampleRecord 1 1 1 (Registry.sampleObject 9)

theorem accepted_opened_resumed :
    ∃ (r : Registry) (evs : List Event),
      r.Chronicled noDeadSession {} (sampleLate (Registry.sampleOpen 1 1 5)) evs ∧
      ∃ before after, evs = before ++ .accepted sampleLateRecord .accepted :: after ∧
        openedIn sampleLateRecord.key before = true := by
  obtain ⟨r, evs, hr, hp⟩ := Registry.exists_chronicled noDeadSession {}
    (sampleLate (Registry.sampleOpen 1 1 5))
    (fun _ evs => evs.drop 2 == [.accepted sampleLateRecord .accepted]) (by decide +kernel)
  have hsplit : evs = evs.take 2 ++ .accepted sampleLateRecord .accepted :: [] := by
    rw [← beq_iff_eq.mp hp, List.take_append_drop]
  exact ⟨r, evs, hr, _, _, hsplit, accepted_opened hr _ _ _ _ hsplit⟩

/-- A session is closed, and a record of it is accepted all the same. -/
theorem closed_session_accepted :
    ∃ (r : Registry) (evs : List Event), r.Chronicled (fun _ _ => true) {}
      (sampleLate (.closeSession ⟨.fromParts 0 1, 1⟩ .written)) evs ∧
      ∃ before after, evs = before ++ .accepted sampleLateRecord .accepted :: after ∧
        openedIn sampleLateRecord.key before = false := by
  obtain ⟨r, evs, hr, hp⟩ := Registry.exists_chronicled (fun _ _ => true) {}
    (sampleLate (.closeSession ⟨.fromParts 0 1, 1⟩ .written))
    (fun _ evs => evs.drop 2 == [.accepted sampleLateRecord .accepted] &&
      !openedIn sampleLateRecord.key (evs.take 2)) (by decide +kernel)
  rw [Bool.and_eq_true, beq_iff_eq, Bool.not_eq_true'] at hp
  exact ⟨r, evs, hr, evs.take 2, [], by rw [← hp.1, List.take_append_drop], hp.2⟩

end CableRegistry
