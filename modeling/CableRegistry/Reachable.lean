import CableRegistry.ArrivalOrder
import CableRegistry.Durability

/-!
# Runs, as the state sees them

Every operation of a registry does one of two things to its state: it accepts a record
(`Accepts`), or it opens a session, touches the counters of one or begins a new lifetime
(`Quiet`).  A `Trace` is a sequence of these, with the records accepted on the way.

`RegistryState.winner` reads the winning record of a claim key, without its lifetime flag.
A quiet step leaves every winner (`winner_quiet`), and an accepted record becomes the
winner of the keys where its claim is written and leaves the others (`winner_of_insert`,
`winner_of_not_insert`).  Every invariant of the later modules is proved from these.

`Effect` is the step a request makes.  The main result is `Registry.ReachedBy.trace`: the
states a registry reaches are those of a trace.  A run opens a registry on an empty disk and then
makes any requests; it may reopen a registry that has a store so long as no failed write left
bytes in the log.
-/

open Std

namespace CableRegistry

/-! ### Steps of a state -/

/-- What an operation does to a state when it accepts no record. -/
inductive Quiet (limits : Limits) (s : RegistryState) : RegistryState → Prop
  | opened (d : SourceDescriptor) (i : Incarnation) (t : Timestamp)
      (h : Registry.Admissible s limits d i) : Quiet limits s (Registry.openState s d i t)
  | touched (key : SourceIncarnationKey) (session : SessionRecord)
      (h : s.sessions.contains key = true) :
      Quiet limits s { s with sessions := s.sessions.insert key session }
  | restarted (s₀ : RegistryState) (h : s₀.core = s.core) : Quiet limits s (clearVolatile s₀)

/-- A record that is accepted, with its attestation. -/
structure Accepts (limits : Limits) (historyPerKey : UInt32) (s : RegistryState) (e : Evidence)
    (m : Attestation) (s' : RegistryState) : Prop where
  shape : validateEvidenceShape e limits = .ok ()
  source : ∃ source t, s.sources[e.header.source]? = some source ∧ source.described = true ∧
    m = attestationOf e source.descriptor.authority t true
  session : s.sessions.contains e.key = true
  decided : ∃ index, CoveredBy s index ∧
    (decideEvidence limits s index m e.payload).disposition.isAccepted = true
  resolved : ∀ u ∈ claimsOf e.key e.payload, resolvedOutcome s m u ≠ .collision
  state : ∃ session, s' = { Registry.accept historyPerKey s m e with
    sessions := s.sessions.insert e.key session }

/-- A sequence of steps, with the records accepted on the way. -/
inductive Trace (limits : Limits) (historyPerKey : UInt32) (s : RegistryState) :
    List Evidence → RegistryState → Prop
  | nil : Trace limits historyPerKey s [] s
  | quiet {es : List Evidence} {s₁ s₂ : RegistryState} (h : Trace limits historyPerKey s es s₁)
      (hq : Quiet limits s₁ s₂) : Trace limits historyPerKey s es s₂
  | accepts {es : List Evidence} {s₁ s₂ : RegistryState} {e : Evidence} {m : Attestation}
      (h : Trace limits historyPerKey s es s₁) (ha : Accepts limits historyPerKey s₁ e m s₂) :
      Trace limits historyPerKey s (es ++ [e]) s₂

variable {es : List Evidence} {requests rest : List Request} {r r₁ : Registry}
  {options : RegistryOptions} {s : RegistryState} {q : Request} {historyPerKey : UInt32}

theorem Trace.trans {limits : Limits} {s₁ s₂ : RegistryState} {es' : List Evidence}
    (h : Trace limits historyPerKey s es s₁) (h' : Trace limits historyPerKey s₁ es' s₂) :
    Trace limits historyPerKey s (es ++ es') s₂ := by
  induction h' with
  | nil =>
    rw [List.append_nil]
    exact h
  | quiet _ hq ih => exact ih.quiet hq
  | accepts _ ha ih =>
    rw [← List.append_assoc]
    exact ih.accepts ha

/-- What a request does to a state, and the record it makes the registry accept. -/
inductive Effect (limits : Limits) (historyPerKey : UInt32) (s : RegistryState) :
    Request → List Evidence → RegistryState → Prop
  | nothing (q : Request) : Effect limits historyPerKey s q [] s
  | opened (d : SourceDescriptor) (i : Incarnation) (t t' : Timestamp) (io : Store.AppendIo)
      (h : Registry.Admissible s limits d i) :
      Effect limits historyPerKey s (.openSession d i t t' io) [] (Registry.openState s d i t')
  | touched (q : Request) (key : SourceIncarnationKey) (session : SessionRecord)
      (h : s.sessions.contains key = true) :
      Effect limits historyPerKey s q [] { s with sessions := s.sessions.insert key session }
  | accepted {e : Evidence} {m : Attestation} {s' : RegistryState} (t : Timestamp)
      (io : Store.AppendIo) (h : Accepts limits historyPerKey s e m s') :
      Effect limits historyPerKey s (.ingest e t io) [e] s'
  | restarted (env : Registry.OpenEnv) (s₀ : RegistryState) (h : s₀.core = s.core) :
      Effect limits historyPerKey s (.reopen env) [] (clearVolatile s₀)

theorem Effect.trace {limits : Limits} {s' : RegistryState}
    (h : Effect limits historyPerKey s q es s') :
    Trace limits historyPerKey s es s' := by
  cases h with
  | nothing => exact .nil
  | opened d i t t' io h => exact Trace.nil.quiet (.opened d i t' h)
  | touched q key session h => exact Trace.nil.quiet (.touched key session h)
  | accepted t io h => exact Trace.nil.accepts h
  | restarted env s₀ h => exact Trace.nil.quiet (.restarted s₀ h)

/-! ### Winners -/

/-- The winning record of a claim key and its value. -/
def RegistryState.stored (s : RegistryState) (k : ClaimKey) : Option (Attestation × ClaimValue) :=
  (s.lookup k).map fun f => (f.metadata, f.value)

/-- The winning record of a claim key and its value.  The lifetime flag is left out. -/
def RegistryState.winner (s : RegistryState) (k : ClaimKey) : Option (Attestation × ClaimValue) :=
  (s.lookup k).map fun f => (f.metadata.blur coreBlur, f.value)

section Winner

variable {limits : Limits} {historyPerKey : UInt32} {s s' : RegistryState} {e : Evidence}
  {m : Attestation}

theorem lookup_core (s : RegistryState) (k : ClaimKey) :
    s.core.lookup k = (s.lookup k).map (Folded.blur coreBlur) := by
  rw [← lookup_blur]
  cases k <;> rfl

theorem winner_eq_of_core (h : s'.core = s.core) : s'.winner = s.winner := by
  funext k
  have hmap : ∀ s : RegistryState, s.winner k =
      (s.core.lookup k).map fun f => (f.metadata, f.value) := by
    intro s
    rw [lookup_core, Option.map_map]
    rfl
  rw [hmap s', h, hmap s]

/-- **A quiet step leaves every winner.** -/
theorem winner_quiet (h : Quiet limits s s') : s'.winner = s.winner := by
  cases h with
  | opened d i t h =>
    funext k
    unfold RegistryState.winner
    rw [Registry.openState_lookup]
  | touched key session h =>
    funext k
    unfold RegistryState.winner
    rw [lookup_sessions]
  | restarted s₀ h => exact winner_eq_of_core (by rw [core_clearVolatile, h])

/-- A new lifetime stores the winners, none of them asserted in it. -/
theorem stored_clearVolatile (h : s'.core = s.core) (k : ClaimKey) :
    (clearVolatile s').stored k = s.winner k := by
  rw [← winner_eq_of_core h]
  unfold RegistryState.stored RegistryState.winner
  rw [show clearVolatile s' = s'.blur _ from rfl, lookup_blur, Option.map_map]
  rfl

theorem Accepts.owner (h : Accepts limits historyPerKey s e m s') : m.owner = e.key := by
  obtain ⟨source, t, -, -, rfl⟩ := h.source
  rfl

theorem Accepts.generation (h : Accepts limits historyPerKey s e m s') :
    m.generation = e.header.generation := by
  obtain ⟨source, t, -, -, rfl⟩ := h.source
  rfl

theorem Accepts.lookup (h : Accepts limits historyPerKey s e m s') (k : ClaimKey) :
    s'.lookup k = (Registry.accept historyPerKey s m e).lookup k := by
  obtain ⟨session, rfl⟩ := h.state
  rw [lookup_sessions]

theorem metadata_lose {ν : Type} (r : Folded ν) :
    (r.lose historyPerKey m).metadata = r.metadata ∧ (r.lose historyPerKey m).value = r.value := by
  unfold Folded.lose
  split
  · exact ⟨rfl, rfl⟩
  split <;> exact ⟨rfl, rfl⟩

theorem metadata_winSlot {ν : Type} (v : ν) (o : Option (Folded ν)) :
    (winSlot historyPerKey m v o).metadata = m ∧ (winSlot historyPerKey m v o).value = v := by
  cases o <;> exact ⟨rfl, rfl⟩

theorem winner_eq_stored (s : RegistryState) (k : ClaimKey) :
    s.winner k = (s.stored k).map fun w => (w.1.blur coreBlur, w.2) := by
  unfold RegistryState.winner RegistryState.stored
  rw [Option.map_map]
  rfl

section

variable (h : Accepts limits historyPerKey s e m s')

include h

/-- **An accepted record is stored at a key where its claim is written.** -/
theorem stored_of_insert {u : ClaimUpdate} (hu : u ∈ claimsOf e.key e.payload)
    (ho : resolvedOutcome s m u = .insert) :
    s'.stored (u.key e.key) = some (m, u.value) := by
  have hn := nodup_keys_claimsOf m.owner e.payload
  have hlook := lookup_applyChange_of_mem historyPerKey m (resolvedOutcome s m) hn s
    (u := u) (by rw [h.owner]; exact hu)
  rw [ho, h.owner] at hlook
  unfold RegistryState.stored
  rw [h.lookup]
  unfold Registry.accept
  rw [h.owner, hlook]
  simp only [settleSlot, Option.map_some, metadata_winSlot]

/-- **What is stored at every other key stays.** -/
theorem stored_of_not_insert {k : ClaimKey}
    (hk : ∀ u ∈ claimsOf e.key e.payload, u.key e.key = k → resolvedOutcome s m u ≠ .insert) :
    s'.stored k = s.stored k := by
  unfold RegistryState.stored
  rw [h.lookup, Registry.lookup_accept, h.owner]
  cases hf : (claimsOf e.key e.payload).find? (·.key e.key = k) with
  | none => rfl
  | some u =>
    have hu := List.mem_of_find?_eq_some hf
    have hkey : u.key e.key = k := by simpa using List.find?_some hf
    dsimp only
    cases ho : resolvedOutcome s m u with
    | insert => exact absurd ho (hk u hu hkey)
    | superseded =>
      simp only [settleSlot, Option.map_map]
      cases s.lookup k with
      | none => rfl
      | some f => simp only [Option.map_some, Function.comp, metadata_lose]
    | duplicate => rfl
    | collision => rfl

/-- Where the stored record changed, it is the new one. -/
theorem stored_cases (k : ClaimKey) :
    s'.stored k = s.stored k ∨ ∃ u ∈ claimsOf e.key e.payload, u.key e.key = k ∧
      resolvedOutcome s m u = .insert ∧ s'.stored k = some (m, u.value) := by
  by_cases hk : ∃ u ∈ claimsOf e.key e.payload, u.key e.key = k ∧ resolvedOutcome s m u = .insert
  · obtain ⟨u, hu, rfl, ho⟩ := hk
    exact .inr ⟨u, hu, rfl, ho, stored_of_insert h hu ho⟩
  · refine .inl (stored_of_not_insert h ?_)
    intro u hu hkey ho
    exact hk ⟨u, hu, hkey, ho⟩

/-- **An accepted record becomes the winner of a key where its claim is written.** -/
theorem winner_of_insert {u : ClaimUpdate} (hu : u ∈ claimsOf e.key e.payload)
    (ho : resolvedOutcome s m u = .insert) :
    s'.winner (u.key e.key) = some (m.blur coreBlur, u.value) := by
  rw [winner_eq_stored, stored_of_insert h hu ho]
  rfl

/-- **Every other winner stays.** -/
theorem winner_of_not_insert {k : ClaimKey}
    (hk : ∀ u ∈ claimsOf e.key e.payload, u.key e.key = k → resolvedOutcome s m u ≠ .insert) :
    s'.winner k = s.winner k := by
  rw [winner_eq_stored, stored_of_not_insert h hk, ← winner_eq_stored]

/-- Where the winner changed, the record is the new one. -/
theorem winner_cases (k : ClaimKey) :
    s'.winner k = s.winner k ∨ ∃ u ∈ claimsOf e.key e.payload, u.key e.key = k ∧
      resolvedOutcome s m u = .insert ∧ s'.winner k = some (m.blur coreBlur, u.value) := by
  rw [winner_eq_stored, winner_eq_stored]
  rcases stored_cases h k with heq | ⟨u, hu, hk, ho, heq⟩
  · exact .inl (by rw [heq])
  · exact .inr ⟨u, hu, hk, ho, by rw [heq]; rfl⟩

end

/-- What a claim meets, in terms of the winner of its key. -/
theorem claimOutcome_winner (h : m.owner = e.key) (u : ClaimUpdate) :
    claimOutcome s m u =
      match s.winner (u.key e.key) with
      | none => .insert
      | some w => compareGeneration w.1 m (u.sameContent w.2) := by
  unfold claimOutcome RegistryState.winner
  rw [h]
  cases s.lookup (u.key e.key) <;> rfl

end Winner

/-! ### Runs of a registry -/

/-- The run reopens only a registry that has a store, and only so long as no failed write
has left bytes in its log. -/
def Orderly (options : RegistryOptions) (requests : List Request) : Prop :=
  ∀ before env after, requests = before ++ .reopen env :: after →
    options.store.isSome = true ∧ ∀ q ∈ before, q.Tidy options

theorem Orderly.tail (h : Orderly options (q :: requests)) : Orderly options requests := by
  intro before env after heq
  obtain ⟨hstore, htidy⟩ := h (q :: before) env after (by rw [heq]; rfl)
  exact ⟨hstore, fun q' hq' => htidy q' (List.mem_cons_of_mem q hq')⟩

theorem Orderly.tidy_or (h : Orderly options (q :: requests)) :
    q.Tidy options ∨ ∀ env, .reopen env ∉ requests := by
  by_cases hmem : ∃ env, Request.reopen env ∈ requests
  · obtain ⟨env, henv⟩ := hmem
    obtain ⟨before, after, heq⟩ := List.append_of_mem henv
    exact .inl ((h (q :: before) env after (by rw [heq]; rfl)).2 q List.mem_cons_self)
  · exact .inr fun env henv => hmem ⟨env, henv⟩

namespace Registry

/-- The record a request makes the registry accept, if it is one. -/
def acceptedBy (r : Registry) : Request → List Evidence
  | .ingest e t io => if (r.ingest e t io).2.disposition.isAccepted then [e] else []
  | _ => []

/-- The records that a run accepts, in order. -/
def accepted (r : Registry) : List Request → List Evidence
  | [] => []
  | q :: requests =>
    match r.step q with
    | .error _ => []
    | .ok r' => r.acceptedBy q ++ r'.accepted requests

/-- A registry in the middle of a run, with the requests that are still to come. -/
structure Running (r : Registry) (requests : List Request) : Prop where
  wellKeyed : WellKeyed r.state
  indexed : r.Indexed
  orderly : Orderly r.options requests
  logged : (∃ records, Synced r records) ∨ ∀ env, .reopen env ∉ requests

theorem wellKeyed_reframe (h : WellKeyed s) (id : RegistryId) (openedAt : Timestamp)
    (sessions : OrdMap SourceIncarnationKey SessionRecord) :
    WellKeyed (s.reframe id openedAt sessions) := by
  obtain ⟨h₁, h₂, h₃, h₄, h₅, h₆, h₇, h₈, h₉⟩ := h
  exact ⟨h₁, h₂, h₃, h₄, h₅, h₆, h₇, h₈, h₉⟩

/-- An accepted record, whether or not it is made durable. -/
theorem accepts_of_isAccepted {r : Registry} (h : r.Indexed) {e : Evidence} {t : Timestamp}
    {persist : Bool} {io : Store.AppendIo}
    (hd : (r.ingestLocked e t persist true io).2.disposition.isAccepted = true) :
    ∃ m, r.admitRecord e t true = .ok m ∧
      Accepts r.limits r.historyPerKey r.state e m (r.ingestLocked e t persist true io).1.state := by
  obtain ⟨m, session, -, hm, hdecided, hcol, hstate⟩ := ingestLocked_accepted hd
  obtain ⟨hshape, ⟨source, hsource, hdescribed, hmeq⟩, hsession⟩ := admitRecord_eq_ok hm
  have howner : m.owner = e.key := by
    rw [hmeq]
    rfl
  rw [howner] at hcol
  exact ⟨m, hm, hshape, ⟨source, t, hsource, hdescribed, hmeq⟩, hsession, ⟨r.labelIndex, h, hdecided⟩,
    hcol, session, hstate⟩

/-- **A record that is ingested is accepted, or at most counted in its session.** -/
theorem accepts_or_counted (h : r.Indexed) (e : Evidence) (t : Timestamp) (io : Store.AppendIo) :
    (r.acceptedBy (.ingest e t io) = [e] ∧
      ∃ m, Accepts r.limits r.historyPerKey r.state e m (r.ingest e t io).1.state) ∨
    (r.acceptedBy (.ingest e t io) = [] ∧ ((r.ingest e t io).1.state = r.state ∨
      r.state.sessions.contains e.key = true ∧ ∃ session, (r.ingest e t io).1.state =
        { r.state with sessions := r.state.sessions.insert e.key session })) := by
  cases hd : (r.ingest e t io).2.disposition.isAccepted with
  | true =>
    obtain ⟨m, -, ha⟩ := accepts_of_isAccepted h hd
    exact .inl ⟨if_pos hd, m, ha⟩
  | false => exact .inr ⟨if_neg (by simp [hd]), ingestLocked_refused hd⟩

theorem effect_ingest (h : r.Indexed) (e : Evidence) (t : Timestamp) (io : Store.AppendIo) :
    Effect r.limits r.historyPerKey r.state (.ingest e t io) (r.acceptedBy (.ingest e t io))
      (r.ingest e t io).1.state := by
  rcases accepts_or_counted h e t io with ⟨hone, m, ha⟩ | ⟨hnone, hstate | ⟨hs, session, hstate⟩⟩
  · rw [hone]
    exact .accepted t io ha
  · rw [hnone, hstate]
    exact .nothing _
  · rw [hnone, hstate]
    exact .touched _ e.key session hs

theorem Does.effect (h : Does r q r₁) (hi : r.Indexed) :
    Effect r.limits r.historyPerKey r.state q (r.acceptedBy q) r₁.state := by
  cases h with
  | wrote hq hwrote =>
    rw [hwrote.state]
    cases q with
    | ingest e t io => exact absurd rfl (hq e t io)
    | _ => exact .nothing _
  | opened _ d i t t' io hadmitted => exact .opened d i t t' io (admitSession_eq_ok hadmitted)
  | closed _ key io =>
    show Effect _ _ _ _ [] (applySessionClose r.state key)
    rcases applySessionClose_cases r.state key with heq | ⟨hs, session, heq⟩ <;> rw [heq]
    · exact .nothing _
    · exact .touched _ key session hs
  | ingested e t io => exact effect_ingest hi e t io

/-- **What a request does to the state**, and the run goes on. -/
theorem Running.step (h : r.Running (q :: requests)) (hstep : r.step q = .ok r₁) :
    r₁.Running requests ∧ SameConfig r r₁ ∧
      Effect r.limits r.historyPerKey r.state q (r.acceptedBy q) r₁.state := by
  -- The log stays in step with the registry so long as it has to be read again.
  have hlogged : (∃ records, Synced r₁ records) ∨ ∀ env, .reopen env ∉ requests := by
    rcases h.logged with ⟨records, hs⟩ | hnone
    · rcases h.orderly.tidy_or with htidy | hnone
      · obtain ⟨records', hs', -⟩ := hs.step (fun _ _ => h.wellKeyed) htidy hstep
        exact .inl ⟨records', hs'⟩
      · exact .inr hnone
    · exact .inr fun env henv => hnone env (List.mem_cons_of_mem q henv)
  have hkeeps : SameConfig r r₁ → WellKeyed r₁.state → r₁.Indexed → r₁.Running requests :=
    fun hcfg hw hi => ⟨hw, hi, hcfg.options ▸ h.orderly.tail, hlogged⟩
  by_cases hq : ∃ env, q = .reopen env
  · obtain ⟨env, rfl⟩ := hq
    rcases h.logged with ⟨records, hs⟩ | hnone
    · obtain ⟨hoptions, hs', s₀, hstate, hcore⟩ := hs.reopen hstep
      have hcfg : SameConfig r r₁ := by
        refine ⟨hoptions, ?_, ?_, ?_⟩
        · rw [hs'.config.limits, hs.config.limits, hoptions]
        · rw [hs'.config.historyPerKey, hs.config.historyPerKey, hoptions]
        · rw [hs'.config.closed, hs.config.closed]
      refine ⟨hkeeps hcfg ?_ hs'.indexed, hcfg, ?_⟩
      · rw [hstate, clearVolatile_of_core hcore]
        exact wellKeyed_reframe (h.wellKeyed.blur _) _ _ _
      · rw [hstate]
        exact .restarted env s₀ hcore
    · exact absurd List.mem_cons_self (hnone env)
  · have hdoes := does (not_exists.mp hq) hstep
    exact ⟨hkeeps hdoes.frame.1 (hdoes.wellKeyed h.wellKeyed) (hdoes.indexed h.indexed),
      hdoes.frame.1, hdoes.effect h.indexed⟩

/-- **A run is a trace of the state.** -/
theorem Running.run (h : r.Running (requests ++ rest)) (hrun : r.run requests = .ok r₁) :
    r₁.Running rest ∧ SameConfig r r₁ ∧
      Trace r.limits r.historyPerKey r.state (r.accepted requests) r₁.state := by
  induction requests generalizing r with
  | nil =>
    obtain rfl : r = r₁ := Except.ok.inj hrun
    exact ⟨h, .refl r, .nil⟩
  | cons q requests ih =>
    obtain ⟨r₂, hstep, hrun⟩ := foldlM_cons_eq_ok.mp hrun
    simp only [accepted, hstep]
    obtain ⟨hrunning, hcfg, heffect⟩ := h.step hstep
    obtain ⟨hrunning', hcfg', htrace'⟩ := ih hrunning hrun
    rw [hcfg.limits, hcfg.historyPerKey] at htrace'
    exact ⟨hrunning', hcfg.trans hcfg', heffect.trace.trans htrace'⟩

/-! ### Reached states -/

theorem clearVolatile_empty (id : RegistryId) (openedAt : Timestamp) :
    clearVolatile { id := id, openedAt := openedAt } = { id := id, openedAt := openedAt } := by
  have hmap : ∀ {κ ν : Type} [Ord κ] [TransOrd κ] [LawfulEqOrd κ] (f : κ → ν → ν),
      ExtTreeMap.map f (∅ : OrdMap κ ν) = ∅ := by
    intro κ ν _ _ _ f
    apply ExtTreeMap.ext_getElem?
    intro k
    simp
  simp only [clearVolatile, RegistryState.blur, blurGroups, hmap]

/-- A registry that has just been opened on an empty disk is empty. -/
theorem running_of_open {disk : Option (List UInt8)} {env : OpenEnv} (hfresh : disk.getD [] = [])
    (hopen : (Registry.open options disk env).2 = .ok r) (horderly : Orderly options requests) :
    r.Running requests ∧ r.options = options ∧ r.Configured ∧
      r.state = { id := r.state.id, openedAt := env.now } := by
  obtain ⟨_, hopens⟩ := opens_of_ok hopen
  cases hopens with
  | volatile _ hnone =>
    have hstate := clearVolatile_empty ((initial options env.now).mintId env.draw).state.id env.now
    refine ⟨⟨(WellKeyed.empty _ _).blur _, fun i hi => ?_, horderly, .inr fun env' hmem => ?_⟩, rfl,
      ⟨rfl, rfl, rfl⟩, hstate⟩
    · exact absurd (show (none : Option LabelIndex) = some i from hi) (by simp)
    · obtain ⟨before, after, heq⟩ := List.append_of_mem hmem
      exact absurd (horderly before env' after heq).1 (by simp [hnone])
  | replayed _ _ hold => exact absurd hfresh hold
  | @created store _ report _ hreads =>
    obtain ⟨-, records, hs, -⟩ := Synced.of_open hreads.stored hopen
    have hstate := clearVolatile_empty (founder options env report store).state.id env.now
    exact ⟨⟨(WellKeyed.empty _ _).blur _, hs.indexed, horderly, .inl ⟨records, hs⟩⟩, rfl, hs.config, hstate⟩

/-- The registry is reached by a run: it was opened on an empty disk with the given options,
then took the given requests, and accepted the given records. -/
def ReachedBy (r : Registry) (options : RegistryOptions) (requests : List Request)
    (es : List Evidence) : Prop :=
  Orderly options requests ∧ ∃ disk env r₀, disk.getD [] = [] ∧
    (Registry.open options disk env).2 = .ok r₀ ∧ r₀.run requests = .ok r ∧
    r₀.accepted requests = es

/-- Every request of the run meets a condition in the state in which it is made. -/
def meets (c : RegistryState → Request → Bool) : Registry → List Request → Bool
  | _, [] => true
  | r, q :: requests => c r.state q &&
    match r.step q with
    | .error _ => true
    | .ok r' => r'.meets c requests

/-- The registry is reached by a run whose requests all meet a condition. -/
def ReachedUnder (c : RegistryState → Request → Bool) (r : Registry) (options : RegistryOptions)
    (requests : List Request) (es : List Evidence) : Prop :=
  Orderly options requests ∧ ∃ disk env r₀, disk.getD [] = [] ∧
    (Registry.open options disk env).2 = .ok r₀ ∧ r₀.run requests = .ok r ∧
    r₀.accepted requests = es ∧ r₀.meets c requests = true

theorem ReachedUnder.reachedBy {c : RegistryState → Request → Bool}
    (h : r.ReachedUnder c options requests es) : r.ReachedBy options requests es := by
  obtain ⟨horderly, disk, env, r₀, hfresh, hopen, hrun, hes, -⟩ := h
  exact ⟨horderly, disk, env, r₀, hfresh, hopen, hrun, hes⟩

/-- **What a registry reaches, a trace from the empty state reaches.** -/
theorem ReachedBy.trace {r : Registry} {options : RegistryOptions} {requests : List Request}
    {es : List Evidence} (h : r.ReachedBy options requests es) :
    WellKeyed r.state ∧ r.Indexed ∧ r.Configured ∧ r.options = options ∧
      ∃ id openedAt, Trace r.limits r.historyPerKey { id := id, openedAt := openedAt } es r.state := by
  obtain ⟨horderly, disk, env, r₀, hfresh, hopen, hrun, hes⟩ := h
  have horderly' : Orderly options (requests ++ []) := by
    rw [List.append_nil]
    exact horderly
  obtain ⟨hrunning, hoptions, hconfig, hstate⟩ := running_of_open hfresh hopen horderly'
  obtain ⟨hrunning', hcfg, htrace⟩ := hrunning.run hrun
  rw [hstate, ← hcfg.limits, ← hcfg.historyPerKey, hes] at htrace
  exact ⟨hrunning'.wellKeyed, hrunning'.indexed, hconfig.of_same hcfg, hcfg.options.trans hoptions,
    _, _, htrace⟩

/-- A registry that is reached is in the middle of every longer run. -/
theorem ReachedBy.running (h : r.ReachedBy options requests es)
    (horderly : Orderly options (requests ++ rest)) : r.Running rest := by
  obtain ⟨-, disk, env, r₀, hfresh, hopen, hrun₀, -⟩ := h
  obtain ⟨hrunning, -, -, -⟩ := running_of_open hfresh hopen horderly
  exact (hrunning.run hrun₀).1

/-- **The rest of a run is a trace as well.** -/
theorem ReachedBy.later {r' : Registry} (h : r.ReachedBy options requests es)
    (horderly : Orderly options (requests ++ rest)) (hrun : r.run rest = .ok r') :
    Trace r.limits r.historyPerKey r.state (r.accepted rest) r'.state := by
  have hrunning : r.Running (rest ++ []) := by
    rw [List.append_nil]
    exact h.running horderly
  exact (hrunning.run hrun).2.2

theorem orderly_of_not_mem (h : ∀ env, .reopen env ∉ requests) : Orderly options requests := by
  intro before env after heq
  refine absurd ?_ (h env)
  rw [heq]
  exact List.mem_append_right _ List.mem_cons_self

theorem ok_of_toOption_any {ε α : Type} {outcome : Except ε α} {p : α → Bool}
    (h : outcome.toOption.any p = true) : ∃ x, outcome = .ok x ∧ p x = true := by
  cases outcome with
  | error error => exact absurd h (by simp [Except.toOption])
  | ok x => exact ⟨x, rfl, h⟩

def isReopen : Request → Bool
  | .reopen _ => true
  | _ => false

/-- A run without a reopen that can be carried out, with what can be computed of the registries it
starts and ends with. -/
theorem exists_run (options : RegistryOptions) (requests : List Request)
    (p : Registry → Registry → Bool)
    (h : (requests.all (!isReopen ·) &&
      (Registry.open options none ⟨0, ⟨1, 2⟩, .written⟩).2.toOption.any fun r₀ =>
        (r₀.run requests).toOption.any (p r₀)) = true) :
    ∃ r₀ r, Orderly options requests ∧
      (Registry.open options none ⟨0, ⟨1, 2⟩, .written⟩).2 = .ok r₀ ∧
      r₀.run requests = .ok r ∧ p r₀ r = true := by
  obtain ⟨hall, hrun⟩ := Bool.and_eq_true_iff.mp h
  obtain ⟨r₀, hopen, hrun⟩ := ok_of_toOption_any hrun
  obtain ⟨r, hrun, hp⟩ := ok_of_toOption_any hrun
  have horderly : Orderly options requests := orderly_of_not_mem fun env hmem =>
    absurd (List.all_eq_true.mp hall _ hmem) (by simp [isReopen])
  exact ⟨r₀, r, horderly, hopen, hrun, hp⟩

/-- The same with the records that the run accepts. -/
theorem exists_reached (options : RegistryOptions) (requests : List Request)
    (p : Registry → List Evidence → Bool)
    (h : (requests.all (!isReopen ·) &&
      (Registry.open options none ⟨0, ⟨1, 2⟩, .written⟩).2.toOption.any fun r₀ =>
        (r₀.run requests).toOption.any fun r => p r (r₀.accepted requests)) = true) :
    ∃ r es, r.ReachedBy options requests es ∧ p r es = true := by
  obtain ⟨r₀, r, horderly, hopen, hrun, hp⟩ :=
    exists_run options requests (fun r₀ r => p r (r₀.accepted requests)) h
  exact ⟨r, _, ⟨horderly, none, _, r₀, rfl, hopen, hrun, rfl⟩, hp⟩

theorem exists_reachedUnder (c : RegistryState → Request → Bool) (options : RegistryOptions)
    (requests : List Request) (p : Registry → Bool)
    (h : (requests.all (!isReopen ·) &&
      (Registry.open options none ⟨0, ⟨1, 2⟩, .written⟩).2.toOption.any fun r₀ =>
        (r₀.run requests).toOption.any fun r => r₀.meets c requests && p r) = true) :
    ∃ r es, r.ReachedUnder c options requests es ∧ p r = true := by
  obtain ⟨r₀, r, horderly, hopen, hrun, hp⟩ :=
    exists_run options requests (fun r₀ r => r₀.meets c requests && p r) h
  obtain ⟨hmeets, hp⟩ := Bool.and_eq_true_iff.mp hp
  exact ⟨r, _, ⟨horderly, none, _, r₀, rfl, hopen, hrun, rfl, hmeets⟩, hp⟩

/-- A session of a source at the given rank. -/
def sampleOpen (source : UInt64) (incarnation : Incarnation) (rank : UInt32) : Request :=
  .openSession { id := .fromParts 0 source, authority := { rank := rank } } incarnation 1 2 .written

/-- A record of a source incarnation. -/
def sampleRecord (source : UInt64) (incarnation : Incarnation) (g : Generation)
    (payload : EvidencePayload) : Evidence where
  header := { id := .fromParts source g, source := .fromParts 0 source, incarnation := incarnation
              generation := g }
  payload := payload

def sampleIngest (source : UInt64) (incarnation : Incarnation) (g : Generation)
    (payload : EvidencePayload) : Request :=
  .ingest (sampleRecord source incarnation g payload) 3 .written

/-- An object with two sides. -/
def sampleObject (object : UInt64) : EvidencePayload :=
  .registerObject { descriptor := { id := .fromParts 0 object, sides := [{}, {}] } }

/-- Endpoint 7, with four ports that admit two attachments each. -/
def sampleEndpoint : EvidencePayload :=
  .registerEndpoint { descriptor :=
    { id := .fromParts 0 7, portCount := 4, defaultPortCapability := { maxSimultaneousAttachments := 2 } } }

/-- A side of an object sits in a slot of a port of endpoint 7. -/
def samplePlace (object : UInt64) (side : SideIndex) (index : PortIndex) (slot : AttachmentSlot) :
    EvidencePayload :=
  .attach { subject := ⟨.fromParts 0 object, side⟩, objectIncarnation := 1,
            port := ⟨.fromParts 0 7, index⟩, slot := slot }

/-- A session opens, registers object 9 and places one of its sides. -/
def sampleRequests : List Request :=
  [.openSession { id := .fromParts 0 1 } 1 1 2 .written, .ingest sampleRegistration 3 .written,
    .ingest (sampleAttach 2 0) 4 .written]

end Registry

end CableRegistry
