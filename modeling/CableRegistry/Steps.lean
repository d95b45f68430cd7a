import CableRegistry.Claims
import CableRegistry.Registry

/-!
# What an operation does to the state

Inversion lemmas for the operations of a registry, in the terms of the state: what
an accepted record changes (`ingestLocked_accepted`), what a refused one leaves
(`ingestLocked_refused`), and what a session that opens or closes changes.  Later
modules use these and never unfold an operation.

`WellKeyed` is the invariant that lets a state be known by its lookups: no outer key
without an owner, and every slot record under its own port.
-/

open Std

namespace CableRegistry

/-! ### Frames -/

variable {live : Bool} {e : Evidence} {r : Registry} {s s' : RegistryState} {io : Store.AppendIo}
  {t : Timestamp}

section Frame

variable (historyPerKey : UInt32) (s : RegistryState) (change : StagedChange)

/-- A property of states that neither a write nor a ring update touches. -/
theorem applyChange_induction {motive : RegistryState → Prop} (hs : motive s)
    (hw : ∀ s u, motive s → motive (applyWrite historyPerKey change.metadata s u))
    (hr : ∀ s u, motive s → motive (applyRing historyPerKey change.metadata s u)) :
    motive (applyChange historyPerKey s change) := by
  have hfold : ∀ {f : RegistryState → ClaimUpdate → RegistryState} (us : List ClaimUpdate)
      (s : RegistryState), (∀ s u, motive s → motive (f s u)) → motive s → motive (us.foldl f s) := by
    intro f us
    induction us with
    | nil => exact fun s _ hs => hs
    | cons u us ih => exact fun s hf hs => ih _ hf (hf s u hs)
  exact hfold _ _ hw (hfold _ _ hr hs)

/-- The parts of a state that evidence never changes. -/
structure SameFrame (s s' : RegistryState) : Prop where
  id : s'.id = s.id
  openedAt : s'.openedAt = s.openedAt
  sources : s'.sources = s.sources

theorem SameFrame.refl (s : RegistryState) : SameFrame s s := ⟨rfl, rfl, rfl⟩

theorem SameFrame.trans {s s'' : RegistryState} (h : SameFrame s s') (h' : SameFrame s' s'') :
    SameFrame s s'' :=
  ⟨h'.id.trans h.id, h'.openedAt.trans h.openedAt, h'.sources.trans h.sources⟩

theorem applyChange_frame : SameFrame s (applyChange historyPerKey s change) := by
  refine applyChange_induction (motive := SameFrame s) historyPerKey s change (.refl s) ?_ ?_ <;>
  · intro s' u h
    cases u <;> exact ⟨h.id, h.openedAt, h.sources⟩

@[simp] theorem applyChange_sessions : (applyChange historyPerKey s change).sessions = s.sessions := by
  refine applyChange_induction (motive := fun s' => s'.sessions = s.sessions) historyPerKey s change
    rfl ?_ ?_ <;>
  · intro s' u h
    cases u <;> exact h

theorem lookup_sessions (sessions : OrdMap SourceIncarnationKey SessionRecord) (k : ClaimKey) :
    ({ s with sessions := sessions } : RegistryState).lookup k = s.lookup k := by
  cases k <;> rfl

end Frame

/-! ### Well-keyed states -/

/-- No outer key is without an owner, and a slot record is under its own port. -/
structure WellKeyed (s : RegistryState) : Prop where
  objectRegistrations : OrdMap.Grouped s.objectRegistrations
  endpointRegistrations : OrdMap.Grouped s.endpointRegistrations
  subjectRecords : OrdMap.Grouped s.subjectRecords
  portRecords : OrdMap.Grouped s.portRecords
  lifecycleRecords : OrdMap.Grouped s.lifecycleRecords
  reincarnationRecords : OrdMap.Grouped s.reincarnationRecords
  objectCapabilityRecords : OrdMap.Grouped s.objectCapabilityRecords
  portCapabilityRecords : OrdMap.Grouped s.portCapabilityRecords
  port_eq : ∀ p key r, OrdMap.find₂ s.portRecords p key = some r → key.port = p

section Grouped

variable {κ ι ν : Type} [Ord κ] [TransOrd κ] [LawfulEqOrd κ] [DecidableEq κ] [Ord ι] [TransOrd ι]
  [LawfulEqOrd ι] {groups : Groups κ ι ν}

theorem grouped_foldGroup (h : OrdMap.Grouped groups) (historyPerKey : UInt32) (k : κ) (i : ι)
    (metadata : Attestation) (value : ν) :
    OrdMap.Grouped (foldGroup historyPerKey groups k i metadata value) := by
  apply h.insert
  unfold fold
  split <;> exact OrdMap.insert_ne_empty' _ _ _

theorem grouped_foldLosingGroup (h : OrdMap.Grouped groups) (historyPerKey : UInt32) (k : κ) (i : ι)
    (metadata : Attestation) :
    OrdMap.Grouped (foldLosingGroup historyPerKey groups k i metadata) := by
  unfold foldLosingGroup
  split
  · exact h
  · rename_i slots hs
    apply h.insert
    unfold foldLosing
    split
    · exact h k slots hs
    · exact OrdMap.insert_ne_empty' _ _ _

end Grouped

theorem WellKeyed.applyWrite (h : WellKeyed s) (historyPerKey : UInt32) (metadata : Attestation)
    (u : ClaimUpdate) :
    WellKeyed (CableRegistry.applyWrite historyPerKey metadata s u) := by
  obtain ⟨h₁, h₂, h₃, h₄, h₅, h₆, h₇, h₈, h₉⟩ := h
  cases u with
  | port key value =>
    refine ⟨h₁, h₂, h₃, grouped_foldGroup h₄ _ _ _ _ _, h₅, h₆, h₇, h₈, ?_⟩
    intro p key' r hr
    simp only [CableRegistry.applyWrite, find₂_foldGroup] at hr
    split at hr
    · rename_i hk
      exact hk.2 ▸ hk.1
    · exact h₉ p key' r hr
  | _ =>
    constructor <;> first | assumption | exact grouped_foldGroup ‹_› _ _ _ _ _

theorem WellKeyed.applyRing (h : WellKeyed s) (historyPerKey : UInt32) (metadata : Attestation)
    (u : ClaimUpdate) :
    WellKeyed (CableRegistry.applyRing historyPerKey metadata s u) := by
  obtain ⟨h₁, h₂, h₃, h₄, h₅, h₆, h₇, h₈, h₉⟩ := h
  cases u with
  | port key value =>
    refine ⟨h₁, h₂, h₃, grouped_foldLosingGroup h₄ _ _ _ _, h₅, h₆, h₇, h₈, ?_⟩
    intro p key' r hr
    simp only [CableRegistry.applyRing, find₂_foldLosingGroup] at hr
    split at hr
    · rename_i hk
      exact hk.2 ▸ hk.1
    · exact h₉ p key' r hr
  | _ =>
    constructor <;> first | assumption | exact grouped_foldLosingGroup ‹_› _ _ _ _

theorem WellKeyed.applyChange (h : WellKeyed s) (historyPerKey : UInt32) (change : StagedChange) :
    WellKeyed (CableRegistry.applyChange historyPerKey s change) :=
  applyChange_induction historyPerKey s change h (fun _ u hs => hs.applyWrite _ _ u)
    (fun _ u hs => hs.applyRing _ _ u)

theorem WellKeyed.withSessions (h : WellKeyed s)
    (sessions : OrdMap SourceIncarnationKey SessionRecord) :
    WellKeyed { s with sessions := sessions } := by
  obtain ⟨h₁, h₂, h₃, h₄, h₅, h₆, h₇, h₈, h₉⟩ := h
  exact ⟨h₁, h₂, h₃, h₄, h₅, h₆, h₇, h₈, h₉⟩

theorem WellKeyed.empty (id : RegistryId) (openedAt : Timestamp) :
    WellKeyed { id := id, openedAt := openedAt } := by
  refine ⟨.empty, .empty, .empty, .empty, .empty, .empty, .empty, .empty, ?_⟩
  intro p key r h
  simp [OrdMap.find₂] at h

/-! ### A state is known by its lookups -/

theorem mapValue_injective {ν μ : Type} {f : ν → μ} (hf : Function.Injective f) :
    Function.Injective (Folded.mapValue f) := by
  rintro ⟨m, v, ring, dropped⟩ ⟨m', v', ring', dropped'⟩ h
  simp only [Folded.mapValue, Folded.mk.injEq] at h
  obtain ⟨rfl, hv, rfl, rfl⟩ := h
  rw [hf hv]

/-- What a key finds is known by what it looks up. -/
theorem eq_of_lookup {ν : Type} {o o' : Option (Folded ν)} {c : ν → ClaimValue}
    (hc : Function.Injective c) (h : o.map (Folded.mapValue c) = o'.map (Folded.mapValue c)) : o = o' :=
  Option.map_injective (mapValue_injective hc) h

theorem WellKeyed.find_portRecords (h : WellKeyed s) (h' : WellKeyed s') {key : PortSlotKey}
    (hl : s.lookup (.port key) = s'.lookup (.port key)) (p : PortRef) :
    OrdMap.find₂ s.portRecords p key = OrdMap.find₂ s'.portRecords p key := by
  by_cases hp : key.port = p
  · subst hp
    exact eq_of_lookup (fun _ _ he => ClaimValue.port.inj he) hl
  · cases hf : OrdMap.find₂ s.portRecords p key with
    | some r => exact absurd (h.port_eq p key r hf) hp
    | none =>
      cases hf' : OrdMap.find₂ s'.portRecords p key with
      | some r => exact absurd (h'.port_eq p key r hf') hp
      | none => rfl

/-- **Well-keyed states with the same lookups are the same**, but for their identity and
the time they were opened. -/
theorem WellKeyed.ext {s s' : RegistryState} (h : WellKeyed s) (h' : WellKeyed s')
    (hsources : s.sources = s'.sources) (hsessions : s.sessions = s'.sessions)
    (hl : ∀ k, s.lookup k = s'.lookup k) :
    s = { s' with id := s.id, openedAt := s.openedAt } := by
  have h₁ := h.objectRegistrations.ext h'.objectRegistrations fun k i =>
    eq_of_lookup (fun _ _ he => ClaimValue.objectRegistration.inj he) (hl (.objectRegistration k i))
  have h₂ := h.endpointRegistrations.ext h'.endpointRegistrations fun k i =>
    eq_of_lookup (fun _ _ he => ClaimValue.endpointRegistration.inj he) (hl (.endpointRegistration k i))
  have h₃ := h.subjectRecords.ext h'.subjectRecords fun k i =>
    eq_of_lookup (fun _ _ he => ClaimValue.subject.inj he) (hl (.subject k i))
  have h₄ := h.portRecords.ext h'.portRecords fun p key =>
    h.find_portRecords h' (hl (.port key)) p
  have h₅ := h.lifecycleRecords.ext h'.lifecycleRecords fun k i =>
    eq_of_lookup (fun _ _ he => ClaimValue.lifecycle.inj he) (hl (.lifecycle k i))
  have h₆ := h.reincarnationRecords.ext h'.reincarnationRecords fun k i =>
    eq_of_lookup (fun _ _ he => ClaimValue.reincarnation.inj he) (hl (.reincarnation k i))
  have h₇ := h.objectCapabilityRecords.ext h'.objectCapabilityRecords fun k i =>
    eq_of_lookup (fun _ _ he => ClaimValue.objectCapability.inj he) (hl (.objectCapability k i))
  have h₈ := h.portCapabilityRecords.ext h'.portCapabilityRecords fun k i =>
    eq_of_lookup (fun _ _ he => ClaimValue.portCapability.inj he) (hl (.portCapability k i))
  cases s
  cases s'
  simp only at hsources hsessions h₁ h₂ h₃ h₄ h₅ h₆ h₇ h₈
  subst hsources hsessions h₁ h₂ h₃ h₄ h₅ h₆ h₇ h₈
  rfl

section Blurred

variable (b : Blur)

theorem find₂_blurGroups {κ ι ν : Type} [Ord κ] [TransOrd κ] [Ord ι] [TransOrd ι]
    (groups : Groups κ ι ν) (k : κ) (i : ι) :
    OrdMap.find₂ (blurGroups b groups) k i = (OrdMap.find₂ groups k i).map (Folded.blur b) := by
  simp only [OrdMap.find₂, find_blurGroups]
  cases groups[k]? <;> simp

theorem lookup_blur (s : RegistryState) (k : ClaimKey) :
    (s.blur b).lookup k = (s.lookup k).map (Folded.blur b) := by
  cases k <;> simp only [RegistryState.lookup, RegistryState.blur, find₂_blurGroups, Option.map_map]
    <;> rfl

theorem grouped_blurGroups {κ ι ν : Type} [Ord κ] [TransOrd κ] [LawfulEqOrd κ] [Ord ι] [TransOrd ι]
    {groups : Groups κ ι ν} (h : OrdMap.Grouped groups) : OrdMap.Grouped (blurGroups b groups) := by
  intro k g hg
  rw [find_blurGroups] at hg
  cases hk : groups[k]? with
  | none => simp [hk] at hg
  | some owners =>
    simp only [hk, Option.map_some, Option.some.injEq] at hg
    subst hg
    intro he
    apply h k owners hk
    have hsize := size_blurOwners b owners
    rw [he] at hsize
    simpa [← ExtTreeMap.isEmpty_iff, ExtTreeMap.isEmpty_eq_size_beq_zero] using hsize.symm

theorem WellKeyed.blur (h : WellKeyed s) : WellKeyed (s.blur b) := by
  obtain ⟨h₁, h₂, h₃, h₄, h₅, h₆, h₇, h₈, h₉⟩ := h
  refine ⟨grouped_blurGroups b h₁, grouped_blurGroups b h₂, grouped_blurGroups b h₃,
    grouped_blurGroups b h₄, grouped_blurGroups b h₅, grouped_blurGroups b h₆,
    grouped_blurGroups b h₇, grouped_blurGroups b h₈, ?_⟩
  intro p key r hr
  simp only [RegistryState.blur, find₂_blurGroups, Option.map_eq_some_iff] at hr
  obtain ⟨r', hr', -⟩ := hr
  exact h₉ p key r' hr'

end Blurred

/-! ### Ingest -/

namespace Registry

/-- The parts of a registry that only opening it sets. -/
structure SameConfig (r r' : Registry) : Prop where
  options : r'.options = r.options
  limits : r'.limits = r.limits
  historyPerKey : r'.historyPerKey = r.historyPerKey
  closed : r'.closed = r.closed

theorem SameConfig.refl (r : Registry) : SameConfig r r := ⟨rfl, rfl, rfl, rfl⟩

theorem SameConfig.trans {r' r'' : Registry} (h : SameConfig r r') (h' : SameConfig r' r'') :
    SameConfig r r'' :=
  ⟨h'.options.trans h.options, h'.limits.trans h.limits, h'.historyPerKey.trans h.historyPerKey,
    h'.closed.trans h.closed⟩

/-- The options of the store that a registry has. -/
def storeOptions (r : Registry) : Option StoreOptions := r.store.map (·.options)

/-- The store of the registry was written to at most, and it is the same store. -/
inductive Wrote (r : Registry) : Registry → Prop
  | mk {store : Option Store} (h : store.map (·.options) = r.storeOptions) :
      Wrote r { r with store := store }

/-- What sessions and compactions leave alone: the label index, the audit and the options of the
store. -/
structure SameRest (r r' : Registry) : Prop extends SameConfig r r' where
  labelIndex : r'.labelIndex = r.labelIndex
  refusals : r'.refusals = r.refusals
  storeOptions : r'.storeOptions = r.storeOptions

theorem Wrote.refl (r : Registry) : Wrote r r := .mk rfl

section Wrote

variable {r' : Registry}

theorem Wrote.state (h : Wrote r r') : r'.state = r.state := by
  cases h
  rfl

theorem Wrote.rest (h : Wrote r r') (s : RegistryState) : SameRest r { r' with state := s } := by
  cases h with
  | mk hs => exact ⟨⟨rfl, rfl, rfl, rfl⟩, rfl, rfl, hs⟩

end Wrote

theorem wrote_appendRecord (r : Registry) (record : StoreRecord) (io : Store.AppendIo) :
    Wrote r (r.appendRecord record io).1 := by
  unfold appendRecord
  cases hs : r.store with
  | none => exact .refl r
  | some store =>
    refine .mk ?_
    rw [storeOptions, hs]
    exact congrArg some (Store.options_append store record io)

theorem wrote_makeDurable (r : Registry) (e : Evidence) (t : Timestamp) (persist : Bool)
    (io : Store.AppendIo) : Wrote r (r.makeDurable e t persist io).1 := by
  unfold makeDurable persistEvidence
  dsimp only
  repeat' split
  all_goals first
    | exact .refl r
    | exact wrote_appendRecord r _ io

/-- What becomes of a record does not depend on the index. -/
theorem makeDurable_labelIndex (r : Registry) (index : Option LabelIndex) (e : Evidence)
    (t : Timestamp) (persist : Bool) (io : Store.AppendIo) :
    ({ r with labelIndex := index }.makeDurable e t persist io) =
      ({ (r.makeDurable e t persist io).1 with labelIndex := index },
        (r.makeDurable e t persist io).2) := by
  unfold makeDurable persistEvidence appendRecord
  dsimp only
  split
  · split
    · rfl
    split
    · rfl
    split <;> rfl
  · rfl

theorem wrote_compact (r : Registry) (io : Store.RewriteIo) : Wrote r (r.compact io).1 := by
  unfold compact
  split
  · exact .refl r
  split
  · exact .refl r
  rename_i store hs
  split
  · exact .refl r
  · refine .mk ?_
    rw [storeOptions, hs]
    exact congrArg some (Store.options_rewrite store _ io)

theorem admitRecord_eq_ok {m : Attestation} (h : r.admitRecord e t live = .ok m) :
    validateEvidenceShape e r.limits = .ok () ∧
    (∃ source, r.state.sources[e.header.source]? = some source ∧ source.described = true ∧
      m = attestationOf e source.descriptor.authority t live) ∧
    r.state.sessions.contains e.key = true := by
  unfold admitRecord at h
  split at h
  · simp at h
  · rename_i hshape
    split at h
    · simp at h
    · rename_i source hsource
      split at h
      · simp at h
      · rename_i hdesc
        split at h
        · simp at h
        · rename_i hsession
          simp only [Except.ok.injEq] at h
          exact ⟨hshape, ⟨source, hsource, by simpa using hdesc, h.symm⟩, by simpa using hsession⟩

theorem admitRecord_eq_error {refusal : IngestDisposition × String}
    (h : r.admitRecord e t live = .error refusal) :
    refusal.1.isAccepted = false := by
  unfold admitRecord at h
  repeat' split at h
  all_goals first
    | (simp only [Except.error.injEq] at h; subst h; rfl)
    | simp at h

/-- What is said about a record before anything is decided. -/
def resultOf (e : Evidence) (t : Timestamp) : IngestResult :=
  { evidence := e.header.id, kind := e.kindOf, receivedAt := t }

theorem conclude_spec (e : Evidence) (persist : Bool) (result : IngestResult)
    (committed : Registry × IngestDisposition × String) :
    (conclude e persist result committed).1.state = { committed.1.state with
      sessions := committed.1.state.sessions.insert e.key (countRecord
        (committed.1.state.sessions.getD e.key {}) e.header.generation committed.2.1) } ∧
    (conclude e persist result committed).2.disposition = committed.2.1 ∧
    (conclude e persist result committed).1.store = committed.1.store ∧
    (conclude e persist result committed).1.labelIndex = committed.1.labelIndex ∧
    SameConfig committed.1 (conclude e persist result committed).1 := by
  unfold conclude
  dsimp only
  split <;> exact ⟨rfl, rfl, rfl, rfl, ⟨rfl, rfl, rfl, rfl⟩⟩

/-- What becomes of a decision: it is made durable and applied, it cannot be made durable, or there
is nothing to apply. -/
inductive Commits (r : Registry) (e : Evidence) (t : Timestamp) (persist : Bool) (io : Store.AppendIo)
    (d : Decision) : Registry × IngestDisposition × String → Prop
  | applied (durable : (r.makeDurable e t persist io).2 = true) (apply : d.change.apply = true)
      (accepted : d.disposition.isAccepted = true) :
      Commits r e t persist io d ({ (r.makeDurable e t persist io).1 with
        labelIndex := d.labelIndex }.applyStaged d.change, d.disposition, d.detail)
  | notDurable (failed : (r.makeDurable e t persist io).2 = false) (apply : d.change.apply = true)
      (accepted : d.disposition.isAccepted = true) :
      Commits r e t persist io d ({ (r.makeDurable e t persist io).1 with labelIndex := d.labelIndex },
        .refusedPersistence, "the record could not be made durable")
  | kept (nothing : (d.change.apply && d.disposition.isAccepted) = false) :
      Commits r e t persist io d ({ r with labelIndex := d.labelIndex }, d.disposition, d.detail)

theorem commits (r : Registry) (e : Evidence) (t : Timestamp) (persist : Bool) (io : Store.AppendIo)
    (d : Decision) : Commits r e t persist io d (r.commit e t persist io d) := by
  unfold commit
  dsimp only
  rw [makeDurable_labelIndex]
  split
  · rename_i hacc
    rw [Bool.and_eq_true] at hacc
    cases hmade : (r.makeDurable e t persist io).2 with
    | true => exact .applied hmade hacc.1 hacc.2
    | false => exact .notDurable hmade hacc.1 hacc.2
  · rename_i hacc
    exact .kept (Bool.eq_false_of_not_eq_true hacc)

section Commits

variable {persist : Bool} {d : Decision} {committed : Registry × IngestDisposition × String}

section

variable (h : Commits r e t persist io d committed)

include h

theorem Commits.config : SameConfig r committed.1 := by
  have hrest := (r.wrote_makeDurable e t persist io).rest r.state
  cases h with
  | kept _ => exact ⟨rfl, rfl, rfl, rfl⟩
  | _ => exact ⟨hrest.options, hrest.limits, hrest.historyPerKey, hrest.closed⟩

theorem Commits.storeOptions :
    committed.1.storeOptions = r.storeOptions := by
  have hrest := (r.wrote_makeDurable e t persist io).rest r.state
  cases h with
  | kept _ => rfl
  | _ => exact hrest.storeOptions

theorem Commits.refusals :
    committed.1.refusals = r.refusals := by
  have hrest := (r.wrote_makeDurable e t persist io).rest r.state
  cases h with
  | kept _ => rfl
  | _ => exact hrest.refusals

theorem Commits.sessions :
    committed.1.state.sessions = r.state.sessions := by
  have hstate := (r.wrote_makeDurable e t persist io).state
  cases h with
  | applied =>
    refine (applyChange_sessions _ _ _).trans ?_
    dsimp only
    rw [hstate]
  | notDurable => rw [← hstate]
  | kept _ => rfl

end

end Commits

/-- What an ingest comes to: the registry is stopping, the record is not admitted, or it is decided
and counted. -/
inductive Ingests (r : Registry) (e : Evidence) (t : Timestamp) (persist live : Bool)
    (io : Store.AppendIo) : Registry × IngestResult → Prop
  | stopping (closed : r.closed = true) :
      Ingests r e t persist live io (r, { resultOf e t with
        disposition := .refusedClosed
        detail := "the registry is stopping and no longer accepts work" })
  | refused {refusal : IngestDisposition × String} (running : r.closed = false)
      (refused : r.admitRecord e t live = .error refusal) :
      Ingests r e t persist live io (r.refuse persist
        { resultOf e t with disposition := refusal.1, detail := refusal.2 })
  | decided {m : Attestation} {committed : Registry × IngestDisposition × String}
      (running : r.closed = false) (admitted : r.admitRecord e t live = .ok m)
      (commits : Commits r e t persist io
        (decideEvidence r.limits r.state r.labelIndex m e.payload) committed) :
      Ingests r e t persist live io (conclude e persist (resultOf e t) committed)

theorem ingestLocked_of_admitted {m : Attestation} (hclosed : r.closed = false)
    (hm : r.admitRecord e t live = .ok m) (persist : Bool) (io : Store.AppendIo) :
    r.ingestLocked e t persist live io = conclude e persist (resultOf e t)
      (r.commit e t persist io (decideEvidence r.limits r.state r.labelIndex m e.payload)) := by
  unfold ingestLocked
  rw [hclosed, hm]
  rfl

theorem ingests (r : Registry) (e : Evidence) (t : Timestamp) (persist live : Bool)
    (io : Store.AppendIo) : Ingests r e t persist live io (r.ingestLocked e t persist live io) := by
  cases hclosed : r.closed with
  | true =>
    unfold ingestLocked
    rw [hclosed]
    exact .stopping hclosed
  | false =>
    cases hm : r.admitRecord e t live with
    | error refusal =>
      unfold ingestLocked
      rw [hclosed, hm]
      exact .refused hclosed hm
    | ok m =>
      rw [ingestLocked_of_admitted hclosed hm]
      exact .decided hclosed hm (r.commits e t persist io _)

/-- What an accepted record does to a state. -/
def accept (historyPerKey : UInt32) (s : RegistryState) (m : Attestation) (e : Evidence) :
    RegistryState :=
  applyChange historyPerKey s (stagedBy m (resolvedOutcome s m) (claimsOf m.owner e.payload))

/-- An accepted record settles each key it makes a claim about. -/
theorem lookup_accept (historyPerKey : UInt32) (s : RegistryState) (m : Attestation) (e : Evidence)
    (k : ClaimKey) :
    (accept historyPerKey s m e).lookup k =
      match (claimsOf m.owner e.payload).find? (·.key m.owner = k) with
      | some u => settleSlot historyPerKey m u.value (resolvedOutcome s m u) (s.lookup k)
      | none => s.lookup k := by
  have hn := nodup_keys_claimsOf m.owner e.payload
  cases hf : (claimsOf m.owner e.payload).find? (·.key m.owner = k) with
  | none =>
    refine lookup_applyChange_of_not_mem _ _ _ hn _ ?_
    intro u hu
    simpa using List.find?_eq_none.mp hf u hu
  | some u =>
    have hk : u.key m.owner = k := by simpa using List.find?_some hf
    subst hk
    exact lookup_applyChange_of_mem _ _ _ hn _ (List.mem_of_find?_eq_some hf)

/-- **An accepted record** had an attestation and met no collision; its claims are
settled by their outcomes, and besides that only its session's counters change. -/
theorem ingestLocked_accepted {persist : Bool}
    (h : (r.ingestLocked e t persist live io).2.disposition.isAccepted = true) :
    ∃ m session, r.closed = false ∧ r.admitRecord e t live = .ok m ∧
      (decideEvidence r.limits r.state r.labelIndex m e.payload).disposition.isAccepted = true ∧
      (∀ u ∈ claimsOf m.owner e.payload, resolvedOutcome r.state m u ≠ .collision) ∧
      (r.ingestLocked e t persist live io).1.state =
        { accept r.historyPerKey r.state m e with
          sessions := r.state.sessions.insert e.key session } := by
  have hi := r.ingests e t persist live io
  generalize r.ingestLocked e t persist live io = answer at h hi ⊢
  cases hi with
  | stopping _ => exact absurd h (by simp [IngestDisposition.isAccepted])
  | refused _ hm => exact absurd (h.symm.trans (admitRecord_eq_error hm)) (by simp)
  | @decided m committed hclosed hm hc =>
    obtain ⟨hstate, hdisp, -⟩ := conclude_spec e persist (resultOf e t) committed
    rw [hdisp] at h
    have hd : (decideEvidence r.limits r.state r.labelIndex m e.payload).disposition.isAccepted =
        true := by
      cases hc with
      | applied _ _ hacc => exact hacc
      | notDurable _ _ hacc => exact hacc
      | kept _ => exact h
    obtain ⟨hcol, hchange⟩ :=
      (resolves_decideEvidence r.limits r.state r.labelIndex m e.payload).accepted hd
    have happ : committed.1.state = accept r.historyPerKey r.state m e := by
      unfold accept
      rw [← hchange]
      have hwrote := r.wrote_makeDurable e t persist io
      cases hc with
      | applied =>
        unfold applyStaged
        dsimp only
        rw [hwrote.state, (hwrote.rest r.state).historyPerKey]
      | notDurable => exact absurd h (by simp [IngestDisposition.isAccepted])
      | kept hnone =>
        rw [hd, Bool.and_true, hchange] at hnone
        rw [hchange]
        exact (applyChange_of_not_apply _ _ _ _ _ hnone).symm
    have hsessions : (accept r.historyPerKey r.state m e).sessions = r.state.sessions :=
      applyChange_sessions _ _ _
    rw [happ, hsessions] at hstate
    exact ⟨m, _, hclosed, hm, hd, hcol, hstate⟩

/-- **A refused record** changes nothing but its session's counters. -/
theorem ingestLocked_refused {persist : Bool}
    (h : (r.ingestLocked e t persist live io).2.disposition.isAccepted = false) :
    (r.ingestLocked e t persist live io).1.state = r.state ∨
    (r.state.sessions.contains e.key = true ∧
      ∃ session, (r.ingestLocked e t persist live io).1.state =
        { r.state with sessions := r.state.sessions.insert e.key session }) := by
  have hi := r.ingests e t persist live io
  generalize r.ingestLocked e t persist live io = answer at h hi ⊢
  cases hi with
  | stopping _ => exact .inl rfl
  | refused _ _ =>
    refine .inl ?_
    unfold refuse
    split <;> rfl
  | @decided m committed _ hm hc =>
    obtain ⟨hstate, hdisp, -⟩ := conclude_spec e persist (resultOf e t) committed
    rw [hdisp] at h
    have hsame : committed.1.state = r.state := by
      cases hc with
      | applied _ _ hacc => exact absurd (h.symm.trans hacc) (by simp)
      | notDurable => exact (r.wrote_makeDurable e t persist io).state
      | kept _ => rfl
    rw [hsame] at hstate
    exact .inr ⟨(admitRecord_eq_ok hm).2.2, _, hstate⟩

theorem ingestLocked_config (r : Registry) (e : Evidence) (t : Timestamp) (persist live : Bool)
    (io : Store.AppendIo) : SameConfig r (r.ingestLocked e t persist live io).1 := by
  have hi := r.ingests e t persist live io
  generalize r.ingestLocked e t persist live io = answer at hi ⊢
  cases hi with
  | stopping _ => exact .refl r
  | refused _ _ =>
    unfold refuse
    split <;> exact ⟨rfl, rfl, rfl, rfl⟩
  | decided _ _ hc => exact hc.config.trans (conclude_spec e persist _ _).2.2.2.2

/-- Evidence never adds a session or changes a source, and keeps a state well keyed. -/
theorem ingestLocked_frame (r : Registry) (e : Evidence) (t : Timestamp) (persist live : Bool)
    (io : Store.AppendIo) :
    SameFrame r.state (r.ingestLocked e t persist live io).1.state ∧
    (∀ k, (r.ingestLocked e t persist live io).1.state.sessions.contains k =
      r.state.sessions.contains k) ∧
    (WellKeyed r.state → WellKeyed (r.ingestLocked e t persist live io).1.state) := by
  have hcontains : ∀ session, r.state.sessions.contains e.key = true → ∀ k,
      (r.state.sessions.insert e.key session).contains k = r.state.sessions.contains k := by
    intro session hs k
    rw [ExtTreeMap.contains_insert]
    by_cases hk : e.key = k
    · subst hk
      rw [hs, Bool.or_true]
    · simp [hk]
  cases hd : (r.ingestLocked e t persist live io).2.disposition.isAccepted with
  | true =>
    obtain ⟨m, session, -, hm, -, -, hstate⟩ := ingestLocked_accepted hd
    obtain ⟨-, -, hs⟩ := admitRecord_eq_ok hm
    rw [hstate]
    have hframe := applyChange_frame r.historyPerKey r.state
      (stagedBy m (resolvedOutcome r.state m) (claimsOf m.owner e.payload))
    exact ⟨⟨hframe.id, hframe.openedAt, hframe.sources⟩, hcontains session hs,
      fun h => (h.applyChange _ _).withSessions _⟩
  | false =>
    rcases ingestLocked_refused hd with hstate | ⟨hs, session, hstate⟩
    · rw [hstate]
      exact ⟨.refl _, fun _ => rfl, id⟩
    · rw [hstate]
      exact ⟨⟨rfl, rfl, rfl⟩, hcontains session hs, fun h => h.withSessions _⟩

/-! ### Sessions -/

/-- The state after a session has opened. -/
def openState (s : RegistryState) (d : SourceDescriptor) (i : Incarnation) (openedAt : Timestamp) :
    RegistryState :=
  makeLive (applySessionOpen s d i openedAt) ⟨d.id, i⟩

theorem currentIncarnation_registerSource (source : SourceRecord) (d : SourceDescriptor)
    (i : Incarnation) :
    (registerSource source d i).currentIncarnation = max source.currentIncarnation i := by
  have hcur : (registerSource source d i).currentIncarnation =
      if i > source.currentIncarnation then i else source.currentIncarnation := by
    unfold registerSource
    dsimp only
    split <;> split <;> rfl
  rw [hcur]
  show _ = if source.currentIncarnation ≤ i then i else source.currentIncarnation
  by_cases h : source.currentIncarnation ≤ i
  · rw [if_pos h]
    split
    · rfl
    · rename_i hn
      exact UInt64.le_antisymm h (UInt64.not_lt.mp hn)
  · rw [if_neg h, if_neg fun hgt => h (UInt64.le_of_lt hgt)]

theorem max_max_self (a b : UInt64) : max (max a b) b = max a b := by
  show (if (if a ≤ b then b else a) ≤ b then b else if a ≤ b then b else a) = if a ≤ b then b else a
  by_cases h : a ≤ b <;> simp [h]

section

variable (s : RegistryState) (d : SourceDescriptor) (i : Incarnation) (openedAt : Timestamp)

/-- Going live changes nothing in a source that the session has just registered. -/
theorem openState_sources :
    (openState s d i openedAt).sources =
      s.sources.insert d.id (registerSource (s.sources.getD d.id {}) d i) := by
  have hmax : ∀ source : SourceRecord,
      { registerSource source d i with
        currentIncarnation := max (registerSource source d i).currentIncarnation i } =
        registerSource source d i := by
    intro source
    have h := currentIncarnation_registerSource source d i
    generalize registerSource source d i = registered at h ⊢
    rw [h, max_max_self, ← h]
  simp only [openState, makeLive, applySessionOpen, OrdMap.insert_insert,
    ExtTreeMap.getD_insert_self, hmax]

theorem openState_sessions :
    ∃ session, (openState s d i openedAt).sessions = s.sessions.insert ⟨d.id, i⟩ session :=
  ⟨_, OrdMap.insert_insert _ _ _ _⟩

theorem openState_lookup (k : ClaimKey) : (openState s d i openedAt).lookup k = s.lookup k := by
  cases k <;> rfl

end

theorem wellKeyed_openState (h : WellKeyed s) (d : SourceDescriptor) (i : Incarnation)
    (openedAt : Timestamp) : WellKeyed (openState s d i openedAt) := by
  obtain ⟨h₁, h₂, h₃, h₄, h₅, h₆, h₇, h₈, h₉⟩ := h
  exact ⟨h₁, h₂, h₃, h₄, h₅, h₆, h₇, h₈, h₉⟩

theorem admitSession_eq_error {d : SourceDescriptor} {i : Incarnation} {refusal : OpenSessionResult}
    (h : r.admitSession d i = .error refusal) :
    refusal.disposition.isOpen = false := by
  simp only [admitSession, refuseIf_bind_eq_error, refuseIf_eq_error] at h
  rcases h with ⟨-, rfl⟩ | ⟨-, ⟨-, rfl⟩ | ⟨-, ⟨-, rfl⟩ | ⟨-, ⟨-, rfl⟩ | ⟨-, ⟨-, rfl⟩ |
    ⟨-, ⟨-, rfl⟩ | ⟨-, -, rfl⟩⟩⟩⟩⟩⟩ <;> rfl

theorem persistSession_spec (r : Registry) (d : SourceDescriptor) (i : Incarnation) (t : Timestamp)
    (io : Store.AppendIo) :
    Wrote r (r.persistSession d i t io).1 ∧
    ∀ refusal, (r.persistSession d i t io).2 = .error refusal →
      refusal.disposition.isOpen = false := by
  unfold persistSession
  dsimp only
  split
  · exact ⟨.refl r, by simp⟩
  split
  · exact ⟨.refl r, by simp [SessionDisposition.isOpen]⟩
  have ha := wrote_appendRecord r
    ⟨.sessionOpen, (Encoder.run (encodeSessionOpen d i t r.limits)).take⟩ io
  split
  · rename_i heq
    rw [heq] at ha
    exact ⟨ha, by simp [SessionDisposition.isOpen]⟩
  · rename_i heq
    rw [heq] at ha
    exact ⟨ha, by simp⟩

theorem isOpen_openedResult (s : RegistryState) (key : SourceIncarnationKey) :
    (openedResult s key).disposition.isOpen = true := by
  unfold openedResult
  dsimp only
  split
  · rfl
  split
  · rfl
  split <;> rfl

/-- What an open comes to: the session is registered, or it is refused. -/
theorem openSession_eq (r : Registry) (d : SourceDescriptor) (i : Incarnation) (t t' : Timestamp)
    (io : Store.AppendIo) :
    ∃ r', Wrote r r' ∧
      ((r.admitSession d i = .ok () ∧ r.openSession d i t t' io =
          ({ r' with state := openState r.state d i t' }, openedResult r.state ⟨d.id, i⟩)) ∨
        ((r.openSession d i t t' io).1 = r' ∧
          (r.openSession d i t t' io).2.disposition.isOpen = false)) := by
  unfold openSession
  cases ha : r.admitSession d i with
  | error refusal => exact ⟨r, .refl r, .inr ⟨rfl, admitSession_eq_error ha⟩⟩
  | ok _ =>
    obtain ⟨hwrote, hrefused⟩ := persistSession_spec r d i t io
    generalize r.persistSession d i t io = persisted at hwrote hrefused
    obtain ⟨r', outcome⟩ := persisted
    refine ⟨r', hwrote, ?_⟩
    cases outcome with
    | error refusal => exact .inr ⟨rfl, hrefused refusal rfl⟩
    | ok _ =>
      refine .inl ⟨rfl, ?_⟩
      rw [← hwrote.state]
      rfl

/-- **A session that opens** was admitted and is registered; one that does not leaves the
state as it was. -/
theorem openSession_spec (r : Registry) (d : SourceDescriptor) (i : Incarnation)
    (t t' : Timestamp) (io : Store.AppendIo) :
    SameRest r (r.openSession d i t t' io).1 ∧
    (((r.openSession d i t t' io).2.disposition.isOpen = true ∧ r.admitSession d i = .ok () ∧
        (r.openSession d i t t' io).1.state = openState r.state d i t') ∨
      ((r.openSession d i t t' io).2.disposition.isOpen = false ∧
        (r.openSession d i t t' io).1.state = r.state)) := by
  obtain ⟨r', hwrote, ⟨hadmitted, heq⟩ | ⟨heq, hrefused⟩⟩ := r.openSession_eq d i t t' io
  · rw [heq]
    exact ⟨hwrote.rest _, .inl ⟨isOpen_openedResult _ _, hadmitted, rfl⟩⟩
  · rw [heq]
    exact ⟨hwrote.rest r'.state, .inr ⟨hrefused, hwrote.state⟩⟩

/-- What closing a session comes to: it is marked as closed, or nothing changes. -/
theorem closeSession_eq (r : Registry) (key : SourceIncarnationKey) (io : Store.AppendIo) :
    ∃ r', Wrote r r' ∧
      ((r.state.sessions.contains key = true ∧
          r.closeSession key io = ({ r' with state := applySessionClose r.state key }, .ok ())) ∨
        ((r.closeSession key io).1 = r' ∧ (r.closeSession key io).2.isOk = false)) := by
  unfold closeSession
  split
  · exact ⟨r, .refl r, .inr ⟨rfl, rfl⟩⟩
  split
  · exact ⟨r, .refl r, .inr ⟨rfl, rfl⟩⟩
  rename_i hs
  have hwrote := wrote_appendRecord r ⟨.sessionClose, (Encoder.run (encodeSessionClose key)).take⟩ io
  generalize r.appendRecord ⟨.sessionClose, (Encoder.run (encodeSessionClose key)).take⟩ io =
    appended at hwrote
  obtain ⟨r', outcome⟩ := appended
  refine ⟨r', hwrote, ?_⟩
  cases outcome with
  | error error => exact .inr ⟨rfl, rfl⟩
  | ok _ =>
    refine .inl ⟨by simpa using hs, ?_⟩
    rw [← hwrote.state]

theorem applySessionClose_cases (s : RegistryState) (key : SourceIncarnationKey) :
    applySessionClose s key = s ∨ s.sessions.contains key = true ∧
      ∃ session, applySessionClose s key = { s with sessions := s.sessions.insert key session } := by
  unfold applySessionClose
  split
  · exact .inl rfl
  · rename_i session hsession
    refine .inr ⟨?_, _, rfl⟩
    rw [ExtTreeMap.contains_eq_isSome_getElem?, hsession]
    rfl

theorem closeSession_spec (r : Registry) (key : SourceIncarnationKey) (io : Store.AppendIo) :
    SameRest r (r.closeSession key io).1 ∧
    ((r.state.sessions.contains key = true ∧
        ∃ session, (r.closeSession key io).1.state =
          { r.state with sessions := r.state.sessions.insert key session }) ∨
      (r.closeSession key io).1.state = r.state) := by
  obtain ⟨r', hwrote, ⟨-, heq⟩ | ⟨heq, -⟩⟩ := r.closeSession_eq key io
  · rw [heq]
    exact ⟨hwrote.rest _, (applySessionClose_cases r.state key).symm⟩
  · rw [heq]
    exact ⟨hwrote.rest r'.state, .inr hwrote.state⟩

/-- **What a request does**, other than opening the log again: whatever it writes, it registers a
session, closes one, ingests a record, or leaves the registry as it was. -/
inductive Does (r : Registry) : Request → Registry → Prop
  | wrote {q : Request} {r' : Registry} (hq : ∀ e t io, q ≠ .ingest e t io) (h : Wrote r r') :
      Does r q r'
  | opened {r' : Registry} (h : Wrote r r') (d : SourceDescriptor) (i : Incarnation)
      (t t' : Timestamp) (io : Store.AppendIo) (admitted : r.admitSession d i = .ok ()) :
      Does r (.openSession d i t t' io) { r' with state := openState r.state d i t' }
  | closed {r' : Registry} (h : Wrote r r') (key : SourceIncarnationKey) (io : Store.AppendIo) :
      Does r (.closeSession key io) { r' with state := applySessionClose r.state key }
  | ingested (e : Evidence) (t : Timestamp) (io : Store.AppendIo) :
      Does r (.ingest e t io) (r.ingest e t io).1

theorem does {q : Request} {r₁ : Registry} (hq : ∀ env, q ≠ .reopen env) (hstep : r.step q = .ok r₁) :
    Does r q r₁ := by
  cases q with
  | openSession d i t t' io =>
    obtain rfl := Except.ok.inj hstep
    obtain ⟨r', hwrote, ⟨hadmitted, heq⟩ | ⟨heq, -⟩⟩ := r.openSession_eq d i t t' io
    · rw [heq]
      exact .opened hwrote d i t t' io hadmitted
    · rw [heq]
      exact .wrote (by simp) hwrote
  | closeSession key io =>
    obtain rfl := Except.ok.inj hstep
    obtain ⟨r', hwrote, ⟨-, heq⟩ | ⟨heq, -⟩⟩ := r.closeSession_eq key io
    · rw [heq]
      exact .closed hwrote key io
    · rw [heq]
      exact .wrote (by simp) hwrote
  | ingest e t io =>
    obtain rfl := Except.ok.inj hstep
    exact .ingested e t io
  | compact io =>
    obtain rfl := Except.ok.inj hstep
    exact .wrote (by simp) (r.wrote_compact io)
  | reopen env => exact absurd rfl (hq env)

theorem applySessionClose_frame (s : RegistryState) (key : SourceIncarnationKey) :
    (applySessionClose s key).id = s.id ∧
      (applySessionClose s key).objectRegistrations = s.objectRegistrations := by
  unfold applySessionClose
  split <;> exact ⟨rfl, rfl⟩

section Does

variable {q : Request} {r₁ : Registry}

/-- Only opening a registry sets its configuration and its identity. -/
theorem Does.frame (h : Does r q r₁) : SameConfig r r₁ ∧ r₁.state.id = r.state.id := by
  cases h with
  | wrote _ hwrote => exact ⟨(hwrote.rest r₁.state).toSameConfig, by rw [hwrote.state]⟩
  | opened hwrote => exact ⟨(hwrote.rest _).toSameConfig, rfl⟩
  | closed hwrote key => exact ⟨(hwrote.rest _).toSameConfig, (applySessionClose_frame _ key).1⟩
  | ingested e t io =>
    exact ⟨r.ingestLocked_config e t true true io, (r.ingestLocked_frame e t true true io).1.id⟩

theorem Does.wellKeyed (h : Does r q r₁) (hw : WellKeyed r.state) : WellKeyed r₁.state := by
  cases h with
  | wrote _ hwrote => exact hwrote.state ▸ hw
  | opened _ d i t t' => exact wellKeyed_openState hw d i t'
  | closed _ key =>
    show WellKeyed (applySessionClose r.state key)
    rcases applySessionClose_cases r.state key with heq | ⟨-, session, heq⟩ <;> rw [heq]
    · exact hw
    · exact hw.withSessions _
  | ingested e t io => exact (r.ingestLocked_frame e t true true io).2.2 hw

end Does

end Registry

end CableRegistry
