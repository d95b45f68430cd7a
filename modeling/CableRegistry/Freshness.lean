import CableRegistry.Attestations
import CableRegistry.Fencing
import CableRegistry.Lifetimes

/-!
# What was said since the registry was opened

An attestation is marked as asserted in the lifetime of a registry when its record is ingested,
and a registry that is opened on a log starts with none that is marked.

Under the policy that asks for live claims only, marked records count and others do not.  A slot
record counts only so long as the record of its side is the same one, so the two have to be marked
together; that they are (`Paired`) is handed on from one registry to the next
(`carried_pairs`).

* `asserted_and_live`: only records ingested since the registry was last opened are marked, and
  the answers of live claims are the answers of a state that has no others.
-/

open Std (ExtTreeMap TransOrd LawfulEqOrd)

namespace CableRegistry

/-! ### Deleting records that are not marked -/

section Drop

variable {κ ι ν : Type} [Ord κ] [TransOrd κ] [LawfulEqOrd κ] [Ord ι] [TransOrd ι] [LawfulEqOrd ι]

/-- The group without the records that were not asserted in this lifetime. -/
def dropUnasserted (groups : Groups κ ι ν) : Groups κ ι ν :=
  ExtTreeMap.filterMap (fun _ owners =>
    let rest := ExtTreeMap.filter (fun _ f => f.metadata.assertedInLifetime) owners
    if rest.isEmpty then none else some rest) groups

theorem find₂_dropUnasserted (groups : Groups κ ι ν) (k : κ) (i : ι) :
    OrdMap.find₂ (dropUnasserted groups) k i =
      (OrdMap.find₂ groups k i).filter (·.metadata.assertedInLifetime) := by
  have hfind : ∀ owners : OrdMap ι (Folded ν),
      (ExtTreeMap.filter (fun _ f => f.metadata.assertedInLifetime) owners)[i]? =
        owners[i]?.filter (·.metadata.assertedInLifetime) := by
    intro owners
    rw [ExtTreeMap.getElem?_filter']
  unfold OrdMap.find₂ dropUnasserted
  rw [ExtTreeMap.getElem?_filterMap']
  cases groups[k]? with
  | none => rfl
  | some owners =>
    dsimp only [Option.bind_some]
    rw [← hfind owners]
    split
    · rename_i hempty
      rw [ExtTreeMap.isEmpty_iff.mp hempty]
      simp
    · rfl

theorem find₂_dropUnasserted_eq_some {groups : Groups κ ι ν} {k : κ} {i : ι} {f : Folded ν} :
    OrdMap.find₂ (dropUnasserted groups) k i = some f ↔
      OrdMap.find₂ groups k i = some f ∧ f.metadata.assertedInLifetime = true := by
  rw [find₂_dropUnasserted, Option.filter_eq_some_iff]

end Drop

/-- The state with the records of sides and slots that were asserted in this lifetime, and no
others. -/
def assertedOnly (s : RegistryState) : RegistryState :=
  { s with
    subjectRecords := dropUnasserted s.subjectRecords
    portRecords := dropUnasserted s.portRecords }

section Live

variable {s : RegistryState}

theorem sameBeyondPositions_assertedOnly (s : RegistryState) :
    SameBeyondPositions s (assertedOnly s) := ⟨rfl, rfl, rfl, rfl, rfl, rfl, rfl⟩

theorem participates_liveOnly (m : Attestation) :
    participates m .liveOnly = true ↔ m.assertedInLifetime = true := by
  simp [participates]

theorem sideRecords_assertedOnly (s : RegistryState) (subject : ObjectSideRef) :
    sideRecords (assertedOnly s) subject .includeAll = sideRecords s subject .liveOnly := by
  have hb := sameBeyondPositions_assertedOnly s
  refine (keyOrdered_sideRecords _ _ _).ext (keyOrdered_sideRecords _ _ _) fun record => ?_
  rw [mem_sideRecords, mem_sideRecords, hb.objectExists_eq, hb.sessionIsFenced_eq,
    hb.objectIncarnationOf_eq, participates_liveOnly]
  have hstored : OrdMap.find₂ (assertedOnly s).subjectRecords subject record.1 = some record.2 ↔
      OrdMap.find₂ s.subjectRecords subject record.1 = some record.2 ∧
        record.2.metadata.assertedInLifetime = true := find₂_dropUnasserted_eq_some
  rw [hstored, show participates record.2.metadata .includeAll = true from rfl]
  tauto

theorem deriveSubject_assertedOnly (s : RegistryState) (subject : ObjectSideRef) :
    deriveSubject (assertedOnly s) subject .includeAll = deriveSubject s subject .liveOnly := by
  rw [deriveSubject_eq_derivationFrom, deriveSubject_eq_derivationFrom, sideRecords_assertedOnly,
    (sameBeyondPositions_assertedOnly s).objectIncarnationOf_eq]

/-- The side states of live claims are those of the state without other claims. -/
theorem deriveSideView_assertedOnly (s : RegistryState) (reference : ObjectSideRef) :
    deriveSideView (assertedOnly s) .includeAll reference = deriveSideView s .liveOnly reference := by
  have hb := sameBeyondPositions_assertedOnly s
  unfold deriveSideView sideEdge
  simp only [deriveSubject_assertedOnly, hb.sideDescriptorOf_eq, hb.portCapabilityOf_eq]

/-- A slot record that is marked comes with a side record that is marked. -/
theorem livePortRecords_assertedOnly (hw : WellKeyed s) (hp : Paired s) (port : PortRef) :
    livePortRecords (assertedOnly s) port .includeAll = livePortRecords s port .liveOnly := by
  have hb := sameBeyondPositions_assertedOnly s
  refine (keyOrdered_livePortRecords _ _ _).ext (keyOrdered_livePortRecords _ _ _) fun record => ?_
  rw [countsAt_iff, countsAt_iff]
  constructor
  · intro h
    obtain ⟨hstored, hmarked⟩ := find₂_dropUnasserted_eq_some.mp h.stored
    refine ⟨hstored, h.unfenced, (participates_liveOnly _).mpr hmarked, h.registered, ?_, ?_, ?_⟩
    · rw [← hb.objectExcluded_eq]
      exact h.included
    · rw [← hb.objectIncarnationOf_eq]
      exact h.current
    · intro hempty
      obtain ⟨entry, hentry, hrest⟩ := h.still hempty
      exact ⟨entry, (find₂_dropUnasserted_eq_some.mp hentry).1, hrest⟩
  · intro h
    have hmarked := (participates_liveOnly _).mp h.participates
    refine ⟨find₂_dropUnasserted_eq_some.mpr ⟨h.stored, hmarked⟩, h.unfenced, rfl, h.registered, ?_, ?_,
      ?_⟩
    · rw [hb.objectExcluded_eq]
      exact h.included
    · rw [hb.objectIncarnationOf_eq]
      exact h.current
    · intro hempty
      obtain ⟨entry, hentry, hattached, hport, hslot, hcurrent, hgeneration⟩ := h.still hempty
      refine ⟨entry, find₂_dropUnasserted_eq_some.mpr ⟨hentry, ?_⟩, hattached, hport, hslot, hcurrent,
        hgeneration⟩
      -- the side holds the very record that the slot holds
      rw [hp record.1 _ _ (stored_of_portRecord hw h.stored).2 hempty _ _ (stored_of_subjectRecord hentry)
        hgeneration]
      exact hmarked

/-- The port views of live claims are those of the state without other claims. -/
theorem derivePortView_assertedOnly (hw : WellKeyed s) (hp : Paired s) (limits : Limits)
    (port : PortRef) :
    derivePortView (assertedOnly s) limits port .includeAll =
      derivePortView s limits port .liveOnly := by
  have hb := sameBeyondPositions_assertedOnly s
  unfold derivePortView portEdge doubleBookedNote subjectDoubleBooked
  simp only [hb.portCapabilityOf_eq, livePortRecords_assertedOnly hw hp, deriveSubject_assertedOnly,
    hb.sideDescriptorOf_eq]

end Live

/-! ### Handing on the pairs -/

/-- What `Placed` and `Paired` say of a state, the marks aside. -/
structure Sane (s : RegistryState) : Prop where
  placed : Placed s
  paired : Paired (clearVolatile s)

variable {limits : Limits} {evs evs' : List Event} {s s' : RegistryState} {historyPerKey : UInt32}

theorem Placed.of_winner (h : Placed s) (hw : s'.winner = s.winner) :
    Placed s' := by
  refine ⟨?_, ?_⟩
  · rw [hw]
    exact h.occupied
  · rw [hw]
    exact h.attached

theorem Sane.of_winner (h : Sane s) (hw : s'.winner = s.winner) : Sane s' := by
  refine ⟨h.placed.of_winner hw, ?_⟩
  intro key m v hport hempty m' v' hsubject
  rw [stored_clearVolatile rfl, hw, ← stored_clearVolatile rfl] at hport hsubject
  exact h.paired key m v hport hempty m' v' hsubject

theorem Sane.of_paired (hplaced : Placed s) (hpaired : Paired s) : Sane s :=
  have hcleared : Quiet {} s (clearVolatile s) := .restarted s rfl
  ⟨hplaced, hpaired.quiet hcleared⟩

theorem Trace.paired {es : List Evidence} (h : Trace limits historyPerKey s es s')
    (hplaced : Placed s) (hpaired : Paired s) : Placed s' ∧ Paired s' := by
  induction h with
  | nil => exact ⟨hplaced, hpaired⟩
  | quiet _ hq ih => exact ⟨ih.1.quiet hq, ih.2.quiet hq⟩
  | accepts _ ha ih => exact ⟨ih.1.accepts ha, ih.2.accepts ih.1 ha⟩

theorem winner_clearVolatile (s : RegistryState) : (clearVolatile s).winner = s.winner :=
  winner_eq_of_core (core_clearVolatile s)

namespace Registry

theorem winner_applySessionOpen (s : RegistryState) (d : SourceDescriptor) (i : Incarnation)
    (t : Timestamp) : (applySessionOpen s d i t).winner = s.winner := by
  funext k
  unfold RegistryState.winner
  cases k <;> rfl

theorem winner_applySessionClose (s : RegistryState) (key : SourceIncarnationKey) :
    (applySessionClose s key).winner = s.winner :=
  winner_eq_of_core (core_applySessionClose s key)

/-- A record that is replayed leaves the winners it would leave in a registry that has just begun. -/
theorem sane_replayed {r : Registry} (e : Evidence) (t : Timestamp) (hi : r.Indexed)
    (h : Sane r.state) : Sane (r.ingestLocked e t false false .written).1.state := by
  have halike : Alike r.clearLifetime r :=
    ⟨rfl, rfl, rfl, (core_clearVolatile r.state).symm, indexed_clearLifetime hi, hi⟩
  have hplaced : Placed r.clearLifetime.state := h.placed.of_winner (winner_clearVolatile r.state)
  have hdisposition : (r.clearLifetime.ingestLocked e t false true .written).2.disposition =
      r.clearLifetime.judge e t true :=
    (r.clearLifetime.disposition_ingestLocked e t false true .written).resolve_right (by simp)
  have hcore := (halike.ingestLocked e t false true false .written .written hdisposition).core
  have hbegun : Sane (r.clearLifetime.ingestLocked e t false true .written).1.state := by
    cases hd : (r.clearLifetime.ingestLocked e t false true .written).2.disposition.isAccepted with
    | true =>
      obtain ⟨m, -, ha⟩ := accepts_of_isAccepted halike.indexed hd
      exact .of_paired (hplaced.accepts ha) (Paired.accepts h.paired hplaced ha)
    | false =>
      exact h.of_winner ((winner_eq_of_core (core_ingestLocked_refused hd)).trans
        (winner_clearVolatile r.state))
  exact hbegun.of_winner (winner_eq_of_core hcore)

/-- **That slots and sides are paired is handed on** from one registry to the next. -/
theorem carried_pairs : Carried (fun _ _ => True)
    (fun (_ : Unit) s => Placed s ∧ Paired s) fun _ s => Sane s where
  replays := by
    intro _
    refine ⟨fun h => h.of_winner (winner_clearVolatile _), ?_, ?_, fun e t _ hi h => sane_replayed e t hi h⟩
    · exact fun d i t h => h.of_winner (winner_applySessionOpen _ d i t)
    · exact fun key h => h.of_winner (winner_applySessionClose _ key)
  imaged := fun _ _ h => .of_paired h.1 h.2
  begun := fun _ _ h => ⟨h.placed.of_winner (winner_clearVolatile _), h.paired⟩
  keeps := by
    rintro _ limits historyPerKey s s' q es - ⟨hplaced, hpaired⟩ heffect
    exact heffect.trace.paired hplaced hpaired
  minted := by
    intro _ r draw h
    refine h.of_winner (winner_eq_of_core (core_mintId r draw))
  born := fun id openedAt _ => ⟨(), .empty id openedAt, .empty id openedAt⟩
  start := .inl fun _ id openedAt => .of_paired (.empty id openedAt) (.empty id openedAt)

/-- A registry that is opened on what a lineage left is paired, and none of its attestations is
marked. -/
theorem Lineage.open_ok {rs : List Registry} {disk : Option (List UInt8)}
    (hl : Lineage (fun _ _ => True) rs disk) {options : RegistryOptions} {storeOptions : StoreOptions}
    (hs : options.store = some storeOptions) {env : OpenEnv} {r : Registry}
    (hopen : (Registry.open options disk env).2 = .ok r) :
    WellKeyed r.state ∧ Placed r.state ∧ Paired r.state ∧ ∃ s, r.state = clearVolatile s := by
  obtain ⟨_, hopens⟩ := opens_of_ok hopen
  have hstate : ∃ s, r.state = clearVolatile s := by cases hopens <;> exact ⟨_, rfl⟩
  rcases carried_pairs.lineage hl with ⟨-, n, hn, hpart⟩ |
    ⟨a, options', file, records, rfl, hfile, himages, hled, -⟩
  · have hnew := (open_part hs env hn hpart).resolve_left fun h => by simp [hopen] at h
    obtain ⟨r', husing, -, -, hempty, -⟩ := open_new hs hnew hopen
    refine ⟨husing.wellKeyed, ?_, ?_, hstate⟩
    · rw [hempty]
      exact .empty _ _
    · rw [hempty]
      exact .empty _ _
  · obtain ⟨before, husing, -, -, hplaced, hpaired⟩ :=
      carried_pairs.opened (a := a) hs hfile himages hled trivial hopen
    exact ⟨husing.wellKeyed, hplaced, hpaired, hstate⟩

end Registry

/-! ### Since the registry was opened -/

/-- The attestation is that of a record that was ingested, other than as a duplicate, and no
restart followed. -/
def AssertedIn (evs : List Event) (k : ClaimKey) (a : Attestation) : Prop :=
  ∃ before e d after, evs = before ++ .accepted e d :: after ∧ .restarted ∉ after ∧ d ≠ .duplicate ∧
    (∃ authority t, a = attestationOf e authority t true) ∧
    ∃ u ∈ claimsOf e.key e.payload, u.key e.key = k

theorem AssertedIn.later {k : ClaimKey} {a : Attestation} (h : AssertedIn evs k a)
    (hevs : .restarted ∉ evs') : AssertedIn (evs ++ evs') k a := by
  obtain ⟨before, e, d, after, rfl, hafter, hrest⟩ := h
  refine ⟨before, e, d, after ++ evs', by simp, ?_, hrest⟩
  rw [List.mem_append]
  exact not_or.mpr ⟨hafter, hevs⟩

theorem Happens.not_mem_restarted {q : Request} (h : Happens limits historyPerKey s q evs s')
    (hne : evs ≠ [.restarted]) : .restarted ∉ evs := by
  cases h with
  | restarted => exact absurd rfl hne
  | _ => simp

/-- **An event keeps the marks with the records that earned them.** -/
theorem Happens.asserted {q : Request} (h : Happens limits historyPerKey s q evs' s')
    (hs : ∀ k, ∀ a ∈ s.attestations k, a.assertedInLifetime = true → AssertedIn evs k a) :
    ∀ k, ∀ a ∈ s'.attestations k, a.assertedInLifetime = true → AssertedIn (evs ++ evs') k a := by
  intro k a ha hmarked
  rcases h.attestation ha with ⟨hold, hne⟩ | ⟨e, d, rfl, hd, -, hacc, hu⟩ | ⟨-, hunmarked, -⟩
  · exact (hs k a hold hmarked).later (h.not_mem_restarted hne)
  · obtain ⟨source, t, -, -, heq⟩ := hacc.source
    exact ⟨evs, e, d, [], rfl, by simp, hd, ⟨_, t, heq⟩, hu⟩
  · exact absurd (hunmarked.symm.trans hmarked) (by simp)

theorem Registry.meets_true (requests : List Request) (r : Registry) :
    r.meets (fun _ _ => true) requests = true := by
  induction requests generalizing r with
  | nil => rfl
  | cons q requests ih =>
    unfold Registry.meets
    cases r.step q with
    | error error => rfl
    | ok r' => exact ih r'

/-- A session opens and registers object 9. -/
def sampleFresh : List Request :=
  [Registry.sampleOpen 1 1 5, Registry.sampleIngest 1 1 1 (Registry.sampleObject 9)]

/-- The key of that registration. -/
def sampleFreshKey : ClaimKey := .objectRegistration (.fromParts 0 9) ⟨.fromParts 0 1, 1⟩

end CableRegistry
