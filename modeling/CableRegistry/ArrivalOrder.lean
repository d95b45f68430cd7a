import CableRegistry.Blurring
import CableRegistry.Folding
import CableRegistry.Steps

/-!
# Arrival order does not matter

Records that are not reincarnations fold to the same state in whatever order they
arrive, and however often.  Each claim key is a slot of `Supersession`: a record offers
one entry to the key of each of its claims (`offered`), `represents_ingest` is the step,
and `Slot.offers_eq_of_mem_iff` says a slot depends on the set of its offers only.  The
state is then known key by key, up to receive times and drop counts, and a snapshot
shows neither (`buildSnapshot_blur`).
-/

open Std Supersession

namespace CableRegistry

/-! ### Sequences of calls -/

/-- A call of `openSession`, with what it takes from its surroundings. -/
structure SessionCall where
  descriptor : SourceDescriptor
  incarnation : Incarnation
  recordedAt : Timestamp := 0
  appliedAt : Timestamp := 0
  io : Store.AppendIo := .written

/-- Which session the call asks for. -/
def SessionCall.session (c : SessionCall) : SourceDescriptor × Incarnation :=
  (c.descriptor, c.incarnation)

/-- A call of `ingest`, with what it takes from its surroundings. -/
structure Arrival where
  evidence : Evidence
  receivedAt : Timestamp := 0
  io : Store.AppendIo := .written

namespace Registry

def openCall (r : Registry) (c : SessionCall) : Registry × OpenSessionResult :=
  r.openSession c.descriptor c.incarnation c.recordedAt c.appliedAt c.io

def openSessions (r : Registry) (calls : List SessionCall) : Registry :=
  calls.foldl (fun r c => (r.openCall c).1) r

/-- Every call opens its session. -/
def AllOpened (r : Registry) : List SessionCall → Prop
  | [] => True
  | c :: calls => (r.openCall c).2.disposition.isOpen = true ∧ (r.openCall c).1.AllOpened calls

def arrive (r : Registry) (a : Arrival) : Registry × IngestResult :=
  r.ingest a.evidence a.receivedAt a.io

def ingestAll (r : Registry) (arrivals : List Arrival) : Registry :=
  arrivals.foldl (fun r a => (r.arrive a).1) r

/-- Every record is accepted. -/
def AllAccepted (r : Registry) : List Arrival → Prop
  | [] => True
  | a :: arrivals =>
    (r.arrive a).2.disposition.isAccepted = true ∧ (r.arrive a).1.AllAccepted arrivals

instance decidableAllOpened : ∀ (r : Registry) (calls : List SessionCall),
    Decidable (r.AllOpened calls)
  | _, [] => .isTrue trivial
  | r, c :: calls =>
    have := decidableAllOpened (r.openCall c).1 calls
    inferInstanceAs (Decidable (_ ∧ _))

instance decidableAllAccepted : ∀ (r : Registry) (arrivals : List Arrival),
    Decidable (r.AllAccepted arrivals)
  | _, [] => .isTrue trivial
  | r, a :: arrivals =>
    have := decidableAllAccepted (r.arrive a).1 arrivals
    inferInstanceAs (Decidable (_ ∧ _))

/-- No source, no session and no record. -/
def IsEmpty (r : Registry) : Prop := r.state = { id := r.state.id, openedAt := r.state.openedAt }

end Registry

/-! ### Entries -/

/-- Forgets what arrival decides: receive times, drop counts and session counters. -/
def arrivalBlur : Blur where
  receivedAt := fun _ => 0
  dropped := fun _ => 0
  session := fun _ => {}

/-- The authority of a source. -/
def authorityIn (sources : OrdMap SourceId SourceRecord) (source : SourceId) : Authority :=
  (sources.getD source {}).descriptor.authority

/-- The attestation of a record, but for its receive time. -/
def attested (sources : OrdMap SourceId SourceRecord) (e : Evidence) : Attestation :=
  attestationOf e (authorityIn sources e.header.source) 0 true

/-- The entry a record offers to a claim key. -/
def offered (sources : OrdMap SourceId SourceRecord) (k : ClaimKey) (e : Evidence) :
    Option (Entry ClaimValue) :=
  ((claimsOf e.key e.payload).find? (·.key e.key = k)).map fun u => (attested sources e, u.value)

variable {es : List Evidence} {slot : Option (Slot (Entry ClaimValue))} {s s' : RegistryState}

section Offered

variable {sources : OrdMap SourceId SourceRecord} {k : ClaimKey} {e e' : Evidence}
  {x x' : Entry ClaimValue}

theorem offered_eq_some (h : offered sources k e = some x) :
    x.1 = attested sources e ∧ e.key = k.owner := by
  simp only [offered, Option.map_eq_some_iff] at h
  obtain ⟨u, hu, rfl⟩ := h
  have hk := List.find?_some hu
  refine ⟨rfl, ?_⟩
  rw [← of_decide_eq_true hk]
  exact (owner_key_of_mem_claimsOf (List.mem_of_find?_eq_some hu)).symm

variable (sources k) in
/-- The entries that a set of records offers to one key: an identity and a generation
each belong to one record only. -/
theorem distinguished_offered {es : List Evidence}
    (hid : ∀ e ∈ es, ∀ e' ∈ es, e.header.id = e'.header.id → e = e')
    (hgen : ∀ e ∈ es, ∀ e' ∈ es, e.key = e'.key → e.header.generation = e'.header.generation →
      e = e') :
    Distinguished (es.filterMap (offered sources k)) ∧
    ∀ x ∈ es.filterMap (offered sources k), ∀ y ∈ es.filterMap (offered sources k),
      Entry.stamp x = Entry.stamp y → x = y := by
  have hstamp : ∀ x ∈ es.filterMap (offered sources k), ∀ y ∈ es.filterMap (offered sources k),
      Entry.stamp x = Entry.stamp y → x = y := by
    intro x hx y hy hxy
    obtain ⟨e, he, hex⟩ := List.mem_filterMap.mp hx
    obtain ⟨e', he', hey⟩ := List.mem_filterMap.mp hy
    obtain ⟨hx1, hxk⟩ := offered_eq_some hex
    obtain ⟨hy1, hyk⟩ := offered_eq_some hey
    have hg : e.header.generation = e'.header.generation := by
      simp only [Entry.stamp, hx1, hy1] at hxy
      exact UInt64.toNat_inj.mp hxy
    have hee := hgen e he e' he' (hxk.trans hyk.symm) hg
    rw [hee, hey] at hex
    exact (Option.some.inj hex).symm
  refine ⟨?_, hstamp⟩
  intro x hx y hy
  constructor
  · intro hev
    obtain ⟨e, he, hex⟩ := List.mem_filterMap.mp hx
    obtain ⟨e', he', hey⟩ := List.mem_filterMap.mp hy
    rw [(offered_eq_some hex).1, (offered_eq_some hey).1] at hev
    have hee := hid e he e' he' hev
    rw [hee, hey] at hex
    rw [Option.some.inj hex]
  · intro hst
    rw [hstamp x hx y hy hst]

end Offered

/-! ### One record -/

/-- An accepted record that is not a reincarnation offers its entry to each key, as the
source settles it. -/
theorem represents_arrive {r : Registry} {a : Arrival} {k : ClaimKey}
    {slot : Option (Slot (Entry ClaimValue))} {entries : List (Entry ClaimValue)}
    (h : (r.arrive a).2.disposition.isAccepted = true)
    (hkind : a.evidence.payload.isReincarnation = false) (hd : Distinguished entries)
    (hrep : Option.Rel (Represents arrivalBlur) (r.state.lookup k) slot)
    (hslot : ∀ s, slot = some s → (∀ y ∈ s.ring ++ [s.winner], y ∈ entries) ∧
      History Entry.stamp (s.ring ++ [s.winner]))
    (hx : ∀ x, offered r.state.sources k a.evidence = some x → x ∈ entries) :
    Option.Rel (Represents arrivalBlur) ((r.arrive a).1.state.lookup k)
      (match offered r.state.sources k a.evidence with
        | some x => Slot.offer Entry.stamp r.historyPerKey.toNat slot x
        | none => slot) := by
  obtain ⟨m, session, -, hm, -, hcol, hstate⟩ := Registry.ingestLocked_accepted h
  obtain ⟨-, ⟨source, hsource, -, hmeq⟩, -⟩ := Registry.admitRecord_eq_ok hm
  have howner : m.owner = a.evidence.key := by
    rw [hmeq]
    rfl
  have hblur : m.blur arrivalBlur = attested r.state.sources a.evidence := by
    rw [hmeq]
    simp [attested, authorityIn, ExtTreeMap.getD_eq_getD_getElem?, hsource]
    rfl
  have hlookup : (r.arrive a).1.state.lookup k =
      (Registry.accept r.historyPerKey r.state m a.evidence).lookup k := by
    have hstate' : (r.arrive a).1.state = _ := hstate
    rw [hstate', lookup_sessions]
  rw [hlookup, Registry.lookup_accept, howner]
  cases hf : (claimsOf a.evidence.key a.evidence.payload).find? (·.key a.evidence.key = k) with
  | none =>
    have hoff : offered r.state.sources k a.evidence = none := by simp [offered, hf]
    rw [hoff]
    exact hrep
  | some u =>
    have hu := List.mem_of_find?_eq_some hf
    have hk : u.key a.evidence.key = k := by simpa using List.find?_some hf
    have hoff : offered r.state.sources k a.evidence = some (m.blur arrivalBlur, u.value) := by
      simp [offered, hf, hblur]
    have hout : resolvedOutcome r.state m u =
        slotOutcome (r.state.lookup k) m u.sameContent := by
      rw [resolvedOutcome_of_not_reached (targetReached_of_mem hkind hu), claimOutcome, howner, hk]
    have hcol' := hcol u (howner ▸ hu)
    rw [hout] at hcol'
    rw [hoff]
    simp only [hout]
    exact represents_settleSlot hrep hd hslot (hx _ hoff) hcol'

/-! ### Many records -/

section Run

variable {sources : OrdMap SourceId SourceRecord} {k : ClaimKey}

/-- The slot of a key after a list of records. -/
def slotAfter (sources : OrdMap SourceId SourceRecord) (historyPerKey : UInt32) (k : ClaimKey)
    (es : List Evidence) : Option (Slot (Entry ClaimValue)) :=
  (es.filterMap (offered sources k)).foldl (Slot.offer Entry.stamp historyPerKey.toNat) none

theorem slotAfter_concat (historyPerKey : UInt32) (es : List Evidence) (e : Evidence) :
    slotAfter sources historyPerKey k (es ++ [e]) =
      match offered sources k e with
      | some x => Slot.offer Entry.stamp historyPerKey.toNat (slotAfter sources historyPerKey k es) x
      | none => slotAfter sources historyPerKey k es := by
  simp only [slotAfter, List.filterMap_append, List.foldl_append]
  cases h : offered sources k e <;> simp [h]

theorem Registry.arrive_frame (r : Registry) (a : Arrival) :
    SameConfig r (r.arrive a).1 ∧ SameFrame r.state (r.arrive a).1.state ∧
    (∀ key, (r.arrive a).1.state.sessions.contains key = r.state.sessions.contains key) ∧
    (WellKeyed r.state → WellKeyed (r.arrive a).1.state) :=
  ⟨Registry.ingestLocked_config r a.evidence a.receivedAt true true a.io,
    Registry.ingestLocked_frame r a.evidence a.receivedAt true true a.io⟩

theorem Registry.ingestAll_frame (arrivals : List Arrival) (r : Registry) :
    SameConfig r (r.ingestAll arrivals) ∧ SameFrame r.state (r.ingestAll arrivals).state ∧
    (∀ key, (r.ingestAll arrivals).state.sessions.contains key = r.state.sessions.contains key) ∧
    (WellKeyed r.state → WellKeyed (r.ingestAll arrivals).state) := by
  induction arrivals generalizing r with
  | nil => exact ⟨.refl r, .refl _, fun _ => rfl, id⟩
  | cons a arrivals ih =>
    obtain ⟨hc, hf, hs, hw⟩ := r.arrive_frame a
    obtain ⟨hc', hf', hs', hw'⟩ := ih (r.arrive a).1
    exact ⟨hc.trans hc', hf.trans hf', fun key => (hs' key).trans (hs key), hw' ∘ hw⟩

/-- **A run of accepted records leaves in each key the slot of their offers.** -/
theorem represents_ingestAll {es : List Evidence}
    (hkind : ∀ e ∈ es, e.payload.isReincarnation = false)
    (hid : ∀ e ∈ es, ∀ e' ∈ es, e.header.id = e'.header.id → e = e')
    (hgen : ∀ e ∈ es, ∀ e' ∈ es, e.key = e'.key → e.header.generation = e'.header.generation →
      e = e')
    (arrivals : List Arrival) (r : Registry) (seen : List Evidence)
    (hmem : ∀ e ∈ seen ++ arrivals.map (·.evidence), e ∈ es) (hsources : r.state.sources = sources)
    (h : r.AllAccepted arrivals)
    (hrep : Option.Rel (Represents arrivalBlur) (r.state.lookup k)
      (slotAfter sources r.historyPerKey k seen)) :
    Option.Rel (Represents arrivalBlur) ((r.ingestAll arrivals).state.lookup k)
      (slotAfter sources r.historyPerKey k (seen ++ arrivals.map (·.evidence))) := by
  induction arrivals generalizing r seen with
  | nil =>
    rw [List.map_nil, List.append_nil]
    exact hrep
  | cons a arrivals ih =>
    obtain ⟨ha, hrest⟩ := h
    obtain ⟨hc, hf, -, -⟩ := r.arrive_frame a
    have hmem_a : a.evidence ∈ es := hmem _ (by simp)
    have hsub : ∀ y ∈ (seen.filterMap (offered sources k)), y ∈ es.filterMap (offered sources k) := by
      intro y hy
      obtain ⟨e, he, hey⟩ := List.mem_filterMap.mp hy
      exact List.mem_filterMap.mpr ⟨e, hmem e (by simp [he]), hey⟩
    have hstep := represents_arrive ha (hkind _ hmem_a)
      (distinguished_offered sources k hid hgen).1 hrep
      (fun s hs => by
        obtain ⟨hin, hasc⟩ := Slot.offers_eq_some _ _ hs
        exact ⟨fun y hy => hsub y (hin y hy), hasc⟩)
      (fun x hx => List.mem_filterMap.mpr ⟨a.evidence, hmem_a, hsources ▸ hx⟩)
    rw [hsources] at hstep
    have hnext := ih (r.arrive a).1 (seen ++ [a.evidence]) (by simpa using hmem)
      (hf.sources.trans hsources) hrest (by rw [slotAfter_concat, hc.historyPerKey]; exact hstep)
    rw [hc.historyPerKey, List.append_assoc] at hnext
    exact hnext

end Run

/-! ### Sessions first -/

/-- The sources that a list of opened sessions registers. -/
def registerAll (sources : OrdMap SourceId SourceRecord)
    (sessions : List (SourceDescriptor × Incarnation)) : OrdMap SourceId SourceRecord :=
  sessions.foldl (fun sources s =>
    sources.insert s.1.id (Registry.registerSource (sources.getD s.1.id {}) s.1 s.2)) sources

theorem Registry.openSessions_spec (calls : List SessionCall) (r : Registry)
    (h : r.AllOpened calls) :
    SameConfig r (r.openSessions calls) ∧
    (r.openSessions calls).state.sources =
      registerAll r.state.sources (calls.map (·.session)) ∧
    (∀ key, (r.openSessions calls).state.sessions.contains key =
      (r.state.sessions.contains key ||
        (calls.map (·.session)).any fun s => key == ⟨s.1.id, s.2⟩)) ∧
    (∀ k, (r.openSessions calls).state.lookup k = r.state.lookup k) ∧
    (WellKeyed r.state → WellKeyed (r.openSessions calls).state) := by
  induction calls generalizing r with
  | nil => exact ⟨.refl r, rfl, by simp [openSessions], fun _ => rfl, id⟩
  | cons c calls ih =>
    obtain ⟨hc, hrest⟩ := h
    obtain ⟨hcfg, ⟨-, -, hstate⟩ | ⟨hno, -⟩⟩ :=
      r.openSession_spec c.descriptor c.incarnation c.recordedAt c.appliedAt c.io
    · obtain ⟨hcfg', hsrc, hses, hlook, hw⟩ := ih (r.openCall c).1 hrest
      have hstate' : (r.openCall c).1.state =
          openState r.state c.descriptor c.incarnation c.appliedAt := hstate
      rw [hstate'] at hsrc hses hlook hw
      refine ⟨hcfg.trans hcfg', ?_, ?_, ?_, fun h => hw (wellKeyed_openState h _ _ _)⟩
      · rw [openState_sources] at hsrc
        exact hsrc
      · intro key
        obtain ⟨session, hs⟩ := openState_sessions r.state c.descriptor c.incarnation c.appliedAt
        have hkey := hses key
        rw [hs, ExtTreeMap.contains_insert] at hkey
        have hk : (compare (⟨c.descriptor.id, c.incarnation⟩ : SourceIncarnationKey) key == .eq) =
            (key == ⟨c.descriptor.id, c.incarnation⟩) := by
          rw [Bool.eq_iff_iff, beq_iff_eq, beq_iff_eq, OrdMap.compare_eq_iff, eq_comm]
        rw [hk, Bool.or_comm (key == _), Bool.or_assoc] at hkey
        exact hkey
      · intro k
        rw [← openState_lookup r.state c.descriptor c.incarnation c.appliedAt k]
        exact hlook k
    · exact absurd (hno.symm.trans hc) (by simp)

/-- What opening sessions leaves in a registry that was empty. -/
theorem Registry.IsEmpty.openSessions {r : Registry} (h : r.IsEmpty) {calls : List SessionCall}
    (ho : r.AllOpened calls) :
    (r.openSessions calls).state.sources = registerAll ∅ (calls.map (·.session)) ∧
    (∀ key, (r.openSessions calls).state.sessions.contains key =
      (calls.map (·.session)).any fun s => key == ⟨s.1.id, s.2⟩) ∧
    (∀ k, (r.openSessions calls).state.lookup k = none) ∧
    WellKeyed (r.openSessions calls).state := by
  obtain ⟨-, hsrc, hses, hlook, hwell⟩ := r.openSessions_spec calls ho
  have hstate : r.state = { id := r.state.id, openedAt := r.state.openedAt } := h
  refine ⟨?_, ?_, ?_, hwell ?_⟩
  · rw [hsrc, hstate]
  · intro key
    rw [hses, hstate]
    simp
  · intro k
    rw [hlook, hstate]
    cases k <;> simp [RegistryState.lookup, OrdMap.find₂]
  · rw [hstate]
    exact .empty _ _

/-! ### The result -/

theorem map_blur_eq_of_represents {o o' : Option (Folded ClaimValue)}
    (h : Option.Rel (Represents arrivalBlur) o slot)
    (h' : Option.Rel (Represents arrivalBlur) o' slot) :
    o.map (Folded.blur arrivalBlur) = o'.map (Folded.blur arrivalBlur) := by
  cases h with
  | none =>
    cases h'
    rfl
  | some hf =>
    cases h' with
    | some hf' =>
      have hw := hf.winner.trans hf'.winner.symm
      have hr := hf.ring.trans hf'.ring.symm
      simp only [Prod.mk.injEq] at hw
      simp only [Option.map_some, Folded.blur, hw.1, hw.2, hr]
      rfl

theorem blur_sessions_eq (h : ∀ key, s.sessions.contains key = s'.sessions.contains key) :
    (s.blur arrivalBlur).sessions = (s'.blur arrivalBlur).sessions := by
  apply ExtTreeMap.ext_getElem?
  intro key
  have hk := h key
  simp only [ExtTreeMap.contains_eq_isSome_getElem?] at hk
  simp only [RegistryState.blur, ExtTreeMap.getElem?_map, arrivalBlur]
  cases h₁ : s.sessions[key]? <;> cases h₂ : s'.sessions[key]? <;> simp_all

/-- States with the same sources, session keys and lookups, up to what arrival decides,
have the same canonical snapshot apart from their identity. -/
theorem encodeSnapshotBytes_eq {s s' : RegistryState} (h : WellKeyed s) (h' : WellKeyed s')
    (hsources : s.sources = s'.sources)
    (hsessions : ∀ key, s.sessions.contains key = s'.sessions.contains key)
    (hlookup : ∀ k, (s.lookup k).map (Folded.blur arrivalBlur) =
      (s'.lookup k).map (Folded.blur arrivalBlur)) (limits limits' : Limits) :
    encodeSnapshotBytes (buildSnapshot s limits) false limits' =
      encodeSnapshotBytes (buildSnapshot s' limits) false limits' := by
  have hblur := (h.blur arrivalBlur).ext (h'.blur arrivalBlur) hsources
    (blur_sessions_eq hsessions) fun k => by rw [lookup_blur, lookup_blur, hlookup]
  rw [← buildSnapshot_blur arrivalBlur s, ← buildSnapshot_blur arrivalBlur s', hblur,
    buildSnapshot_identity]
  rfl

/-- **Arrival order does not matter.**  Two registries open the same sessions and then
take in the same set of records, each in its own order and with its own repetitions, and
accept every one.  The records are not reincarnations; an identity belongs to one record,
and so does a generation of a source incarnation.  Then every claim key has the same
winner and the same ring, receive times aside, and the canonical snapshots without the
registry identity are the same bytes. -/
theorem ingestAll_order_irrelevant (r r' : Registry) (hempty : r.IsEmpty) (hempty' : r'.IsEmpty)
    (hlimits : r'.limits = r.limits) (hhistory : r'.historyPerKey = r.historyPerKey)
    (calls calls' : List SessionCall) (hcalls : calls'.map (·.session) = calls.map (·.session))
    (hopen : r.AllOpened calls) (hopen' : r'.AllOpened calls')
    (R : Finset Evidence) (hkind : ∀ e ∈ R, e.payload.isReincarnation = false)
    (hid : ∀ e ∈ R, ∀ e' ∈ R, e.header.id = e'.header.id → e = e')
    (hgen : ∀ e ∈ R, ∀ e' ∈ R, e.key = e'.key → e.header.generation = e'.header.generation → e = e')
    (xs ys : List Arrival) (hxs : ∀ e, e ∈ xs.map (·.evidence) ↔ e ∈ R)
    (hys : ∀ e, e ∈ ys.map (·.evidence) ↔ e ∈ R)
    (hacc : (r.openSessions calls).AllAccepted xs)
    (hacc' : (r'.openSessions calls').AllAccepted ys) :
    (∀ k, (((r.openSessions calls).ingestAll xs).state.lookup k).map (Folded.blur arrivalBlur) =
      (((r'.openSessions calls').ingestAll ys).state.lookup k).map (Folded.blur arrivalBlur)) ∧
    ∀ limits, encodeSnapshotBytes ((r.openSessions calls).ingestAll xs).snapshot false limits =
      encodeSnapshotBytes ((r'.openSessions calls').ingestAll ys).snapshot false limits := by
  obtain ⟨hsrc, hses, hnone, hwell⟩ := hempty.openSessions hopen
  obtain ⟨hsrc', hses', hnone', hwell'⟩ := hempty'.openSessions hopen'
  have hcfg := (r.openSessions_spec calls hopen).1
  have hcfg' := (r'.openSessions_spec calls' hopen').1
  obtain ⟨hrun, hframe, hkeys, hkeyed⟩ := (r.openSessions calls).ingestAll_frame xs
  obtain ⟨hrun', hframe', hkeys', hkeyed'⟩ := (r'.openSessions calls').ingestAll_frame ys
  rw [hcalls] at hsrc' hses'
  simp only [← Finset.mem_toList] at hkind hid hgen hxs hys
  have hlookup : ∀ k,
      (((r.openSessions calls).ingestAll xs).state.lookup k).map (Folded.blur arrivalBlur) =
      (((r'.openSessions calls').ingestAll ys).state.lookup k).map (Folded.blur arrivalBlur) := by
    intro k
    -- Both keys represent the slot of the same set of offers.
    have hrep := represents_ingestAll (k := k) hkind hid hgen xs (r.openSessions calls) []
      (fun e he => (hxs e).mp he) hsrc hacc (by rw [hnone]; exact .none)
    have hrep' := represents_ingestAll (k := k) hkind hid hgen ys (r'.openSessions calls') []
      (fun e he => (hys e).mp he) hsrc' hacc' (by rw [hnone']; exact .none)
    have hhist : (r'.openSessions calls').historyPerKey = (r.openSessions calls).historyPerKey := by
      rw [hcfg.historyPerKey, hcfg'.historyPerKey, hhistory]
    have hslot : slotAfter (registerAll ∅ (calls.map (·.session)))
        (r.openSessions calls).historyPerKey k ([] ++ ys.map (·.evidence)) =
        slotAfter (registerAll ∅ (calls.map (·.session)))
          (r.openSessions calls).historyPerKey k ([] ++ xs.map (·.evidence)) := by
      apply Slot.offers_eq_of_mem_iff
      · apply (distinguished_offered _ _ _ _).2
        · exact fun e he e' he' => hid e ((hys e).mp he) e' ((hys e').mp he')
        · exact fun e he e' he' => hgen e ((hys e).mp he) e' ((hys e').mp he')
      · intro x
        simp only [List.nil_append, List.mem_filterMap, hxs, hys]
    rw [hhist, hslot] at hrep'
    exact map_blur_eq_of_represents hrep hrep'
  refine ⟨hlookup, fun limits => ?_⟩
  have hl : ((r'.openSessions calls').ingestAll ys).limits =
      ((r.openSessions calls).ingestAll xs).limits := by
    rw [hrun.limits, hrun'.limits, hcfg.limits, hcfg'.limits, hlimits]
  rw [Registry.snapshot, Registry.snapshot, hl]
  refine encodeSnapshotBytes_eq (hkeyed hwell) (hkeyed' hwell') ?_ ?_ hlookup _ _
  · rw [hframe.sources, hframe'.sources, hsrc, hsrc']
  · intro key
    rw [hkeys, hkeys', hses, hses']

/-- A record of generation `g` of incarnation 1 of source 1. -/
def sampleEvidence (g : Generation) (payload : EvidencePayload) : Evidence where
  header := { id := .fromParts 1 g, source := .fromParts 0 1, incarnation := 1, generation := g }
  payload := payload

/-- Object 9, with two sides. -/
def sampleRegistration : Evidence :=
  sampleEvidence 1 (.registerObject { descriptor := { id := .fromParts 0 9, sides := [{}, {}] } })

/-- Side 0 of object 9 sits in a port of endpoint 7. -/
def sampleAttach (g : Generation) (index : PortIndex) : Evidence :=
  sampleEvidence g (.attach
    { subject := ⟨.fromParts 0 9, 0⟩, objectIncarnation := 1, port := ⟨.fromParts 0 7, index⟩ })

def sampleSession : SessionCall := { descriptor := { id := .fromParts 0 1 }, incarnation := 1 }

theorem ingestAll_order_irrelevant_sample :
    ((Registry.initial {} 0).openSessions [sampleSession]).AllAccepted
      [⟨sampleRegistration, 1, .written⟩, ⟨sampleAttach 2 0, 2, .written⟩,
        ⟨sampleAttach 3 1, 3, .written⟩] ∧
    encodeSnapshotBytes (((Registry.initial {} 0).openSessions [sampleSession]).ingestAll
        [⟨sampleRegistration, 1, .written⟩, ⟨sampleAttach 2 0, 2, .written⟩,
          ⟨sampleAttach 3 1, 3, .written⟩]).snapshot false {} =
      encodeSnapshotBytes (((Registry.initial {} 4).openSessions [sampleSession]).ingestAll
        [⟨sampleAttach 3 1, 5, .written⟩, ⟨sampleAttach 2 0, 6, .written⟩,
          ⟨sampleRegistration, 7, .written⟩, ⟨sampleAttach 3 1, 8, .written⟩]).snapshot false {} :=
  ⟨by decide +kernel,
    (ingestAll_order_irrelevant (.initial {} 0) (.initial {} 4) rfl rfl rfl rfl [sampleSession]
      [sampleSession] rfl (by decide +kernel) (by decide +kernel)
      {sampleRegistration, sampleAttach 2 0, sampleAttach 3 1} (by decide) (by decide) (by decide)
      _ _ (by intro e; simp) (by intro e; simp; tauto) (by decide +kernel)
      (by decide +kernel)).2 {}⟩

end CableRegistry
