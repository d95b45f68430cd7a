import CableRegistry.Inspection
import CableRegistry.Reopening

/-!
# What an inspection leaves out

An inspection is to show what is unresolved.  Two of its lists say less than that.

* Of the records at a port, `pendingReference` looks at the first one, and the loop over the ports
  ends with the last unvalidated port that is shown.  The dangling records are all listed exactly
  if none is behind the first record of its port or beyond that port (`pending_complete_iff`).
* The audit has one entry for each of the last refusals, oldest first, but it does not say which
  stream the refused record belongs to (`Audits.step`, `Audits.run`).  It is exact only for
  records that name no stream at all (`refusal_audit_iff`).
-/

open Std (ExtTreeMap)

namespace CableRegistry

/-! ### Pending references -/

/-- What tells a record from another one: its evidence, source, incarnation and generation. -/
abbrev RecordId := EvidenceId × SourceId × Incarnation × Generation

def PendingReferenceView.recordId (v : PendingReferenceView) : RecordId :=
  (v.evidence, v.source, v.incarnation, v.generation)

/-- The port records of a state, by port. -/
abbrev PortEntry := PortRef × OrdMap PortSlotKey (Folded PortValue)

section Dangling

variable (s : RegistryState) (limits : Limits)

/-- The object or the port of a record is not registered. -/
def dangling (port : PortRef) (record : PortSlotKey × Folded PortValue) : Bool :=
  !objectExists s record.2.value.subject.object || !portExists s port

/-- The dangling ones of some records of a port. -/
def danglingAmong (port : PortRef) (records : List (PortSlotKey × Folded PortValue)) : List RecordId :=
  (records.filter (dangling s port)).map fun record =>
    (record.2.metadata.evidence, record.1.owner.source, record.1.owner.incarnation,
      record.2.metadata.generation)

/-- The dangling records at a port. -/
def danglingAt (entry : PortEntry) : List RecordId := danglingAmong s entry.1 entry.2.toList

/-- Those behind the first record of the port. -/
def danglingBehind (entry : PortEntry) : List RecordId := danglingAmong s entry.1 entry.2.toList.tail

/-- The port is shown among the unvalidated ones. -/
def shownUnvalidated (entry : PortEntry) : Bool :=
  (pendingReference s entry).isNone &&
    (derivePortView s limits entry.1 .includeAll).validation == .unvalidated &&
    (derivePortView s limits entry.1 .includeAll).state != .unknown

end Dangling

variable {s : RegistryState} {limits : Limits} {bound found : Nat} {entries : List PortEntry}

/-- The first record is listed if it is dangling. -/
theorem danglingAt_eq (entry : PortEntry) :
    danglingAt s entry = ((pendingReference s entry).map (·.recordId)).toList ++
      danglingBehind s entry := by
  unfold danglingAt danglingBehind pendingReference
  cases entry.2.toList with
  | nil => rfl
  | cons record records =>
    have hcons : danglingAmong s entry.1 (record :: records) =
        danglingAmong s entry.1 [record] ++ danglingAmong s entry.1 records := by
      simp only [danglingAmong, ← List.map_append, ← List.filter_append, List.singleton_append]
    rw [hcons, List.tail_cons]
    congr 1
    by_cases hobject : objectExists s record.2.value.subject.object = true
    · by_cases hport : portExists s entry.1 = true
      · simp [danglingAmong, dangling, hobject, hport]
      · simp [danglingAmong, dangling, hobject, hport, PendingReferenceView.recordId]
    · simp [danglingAmong, dangling, hobject, PendingReferenceView.recordId]

/-- Nothing is listed that does not dangle. -/
theorem inspectPorts_sublist : ((inspectPorts s limits bound found entries).2.map (·.recordId)).Sublist
    (entries.flatMap (danglingAt s)) := by
  induction entries generalizing found with
  | nil => exact .refl _
  | cons entry entries ih =>
    rw [List.flatMap_cons, danglingAt_eq, List.append_assoc]
    unfold inspectPorts
    cases hp : pendingReference s entry with
    | some pending => exact (ih.trans (List.sublist_append_right _ _)).cons_cons _
    | none =>
      dsimp only
      split
      · split
        · exact List.nil_sublist _
        · exact ih.trans (List.sublist_append_right _ _)
      · exact ih.trans (List.sublist_append_right _ _)

/-- A list that misses something in front of what it misses nothing of. -/
theorem eq_append_iff_of_sublist {α : Type} {x d y : List α} (h : x.Sublist y) :
    x = d ++ y ↔ d = [] ∧ x = y := by
  constructor
  · intro heq
    have hle := h.length_le
    have hlen := congrArg List.length heq
    rw [List.length_append] at hlen
    obtain rfl : d = [] := List.length_eq_zero_iff.mp (by omega)
    exact ⟨rfl, heq⟩
  · rintro ⟨rfl, rfl⟩
    rfl

/-- Everything that holds of the entries of a list and of what is in front of them. -/
theorem forall_split_cons {α : Type} {a : α} {l : List α} {p : List α → α → Prop} :
    (∀ before x after, a :: l = before ++ x :: after → p before x) ↔
      p [] a ∧ ∀ before x after, l = before ++ x :: after → p (a :: before) x := by
  constructor
  · intro h
    exact ⟨h [] a l rfl, fun before x after heq => h (a :: before) x after (by rw [heq]; rfl)⟩
  · rintro ⟨ha, hl⟩ before x after heq
    cases before with
    | nil =>
      obtain ⟨rfl, rfl⟩ := List.cons.inj heq
      exact ha
    | cons b before =>
      obtain ⟨rfl, htail⟩ := List.cons.inj heq
      exact hl before x after htail

/-- **What the loop over the ports lists** is all that dangles exactly if nothing is behind the first
record of a port, and no port with a dangling record comes after the last one that is shown. -/
theorem inspectPorts_iff (hfound : found < max 1 bound) :
    (inspectPorts s limits bound found entries).2.map (·.recordId) =
        entries.flatMap (danglingAt s) ↔
      ∀ before entry after, entries = before ++ entry :: after → danglingBehind s entry = [] ∧
        (danglingAt s entry ≠ [] → found + before.countP (shownUnvalidated s limits) < max 1 bound) := by
  induction entries generalizing found with
  | nil => simp [inspectPorts]
  | cons entry entries ih =>
    rw [forall_split_cons, List.flatMap_cons, danglingAt_eq, List.append_assoc]
    have hsub (found : Nat) := @inspectPorts_sublist s limits bound found entries
    have hhere : found + ([] : List PortEntry).countP (shownUnvalidated s limits) < max 1 bound := hfound
    simp only [hhere, implies_true, and_true, List.countP_cons]
    unfold inspectPorts
    cases hp : pendingReference s entry with
    | some pending =>
      have hshown : shownUnvalidated s limits entry = false := by simp [shownUnvalidated, hp]
      simp only [List.map_cons, Option.map_some, Option.toList_some, List.singleton_append,
        List.cons.injEq, true_and, hshown, Bool.false_eq_true, if_false, Nat.add_zero]
      rw [eq_append_iff_of_sublist (hsub found), ih hfound]
    | none =>
      simp only [Option.map_none, Option.toList_none, List.nil_append]
      by_cases hshown : shownUnvalidated s limits entry = true
      · have hcond : ((derivePortView s limits entry.1 .includeAll).validation == .unvalidated &&
            (derivePortView s limits entry.1 .includeAll).state != .unknown) = true := by
          simpa [shownUnvalidated, hp] using hshown
        simp only [hcond, hshown, if_true]
        by_cases hlast : found + 1 ≥ bound
        · -- nothing after this port is reached
          simp only [if_pos hlast, List.map_nil, List.nil_eq, List.append_eq_nil_iff,
            List.flatMap_eq_nil_iff]
          refine and_congr_right fun _ => ⟨?_, ?_⟩
          · rintro hall before x after rfl
            have hx := hall x (by simp)
            rw [danglingAt_eq, List.append_eq_nil_iff] at hx
            exact ⟨hx.2, fun hne => absurd (hall x (by simp)) hne⟩
          · intro hall x hx
            obtain ⟨before, after, rfl⟩ := List.append_of_mem hx
            by_contra hne
            have hlt := (hall before x after rfl).2 hne
            omega
        · simp only [if_neg hlast]
          rw [eq_append_iff_of_sublist (hsub (found + 1)), ih (by omega)]
          simp only [Nat.add_assoc, Nat.add_comm 1]
      · have hcond : ((derivePortView s limits entry.1 .includeAll).validation == .unvalidated &&
            (derivePortView s limits entry.1 .includeAll).state != .unknown) = false := by
          simpa [shownUnvalidated, hp] using hshown
        simp only [hcond, hshown, Bool.false_eq_true, if_false, Nat.add_zero]
        rw [eq_append_iff_of_sublist (hsub found), ih hfound]

/-- The number of records of some ports. -/
def recordCount (entries : List PortEntry) : Nat := (entries.map (·.2.size)).sum

/-- A port that is shown has a record. -/
theorem size_pos_of_shown {entry : PortEntry} (hmem : entry ∈ s.portRecords.toList)
    (h : shownUnvalidated s limits entry = true) : 0 < entry.2.size := by
  rw [← ExtTreeMap.length_toList]
  refine List.length_pos_iff.mpr fun hnil => ?_
  have hlive : livePortRecords s entry.1 .includeAll = [] := by
    unfold livePortRecords
    rw [OrdMap.mem_toList.mp hmem]
    simp [hnil]
  simp [shownUnvalidated, derivePortView, hlive] at h

theorem countP_shown_le {before : List PortEntry} (h : ∀ entry ∈ before, entry ∈ s.portRecords.toList) :
    before.countP (shownUnvalidated s limits) ≤ recordCount before := by
  induction before with
  | nil => exact Nat.le_refl _
  | cons entry before ih =>
    have hrest := ih fun e he => h e (List.mem_cons_of_mem _ he)
    rw [List.countP_cons, recordCount, List.map_cons, List.sum_cons, ← recordCount]
    split
    · have hpos := size_pos_of_shown (h entry List.mem_cons_self) ‹_›
      omega
    · omega

/-- **When an inspection lists every dangling record.**  For a bound that has room for all port records
it lists exactly those whose object or port is not registered, by port and slot, if and only if none
is behind the first record of its port, and fewer unvalidated ports than a snapshot may have entries
are shown before each port that has one. -/
theorem pending_complete_iff (r : Registry) (maxEntries : UInt32)
    (hroom : recordCount r.state.portRecords.toList ≤ maxEntries.toNat) :
    (r.inspect maxEntries).pendingReferences.map (·.recordId) =
        r.state.portRecords.toList.flatMap (danglingAt r.state) ↔
      ∀ before entry after, r.state.portRecords.toList = before ++ entry :: after →
        danglingBehind r.state entry = [] ∧ (danglingAt r.state entry ≠ [] →
          before.countP (shownUnvalidated r.state r.limits) < max 1 r.limits.maxSnapshotEntries.toNat) := by
  refine (inspectPorts_iff (by omega)).trans ?_
  refine forall₄_congr fun before entry after hsplit => and_congr_right fun _ =>
    imp_congr_right fun hne => ?_
  have hcount := @countP_shown_le r.state r.limits before fun e he => by simp [hsplit, he]
  have hpos : 0 < entry.2.size := by
    rw [← ExtTreeMap.length_toList]
    refine List.length_pos_iff.mpr fun hnil => hne ?_
    rw [danglingAt, hnil]
    rfl
  rw [hsplit, recordCount, List.map_append, List.sum_append, List.map_cons, List.sum_cons,
    ← recordCount, ← recordCount] at hroom
  rw [show (min maxEntries r.limits.maxSnapshotEntries).toNat = _ from UInt32.toNat_min _ _]
  omega

/-- A side of object 9 sits in port 0 of endpoint 7, and next to it one of an object that is not
registered. -/
def sampleNeighbour : List Request :=
  [Registry.sampleOpen 1 1 5, Registry.sampleIngest 1 1 1 Registry.sampleEndpoint,
    Registry.sampleIngest 1 1 2 (Registry.sampleObject 9),
    Registry.sampleIngest 1 1 3 (Registry.samplePlace 9 0 0 0),
    Registry.sampleIngest 1 1 4 (Registry.samplePlace 8 0 0 1)]

theorem pending_complete_iff_sample : ∃ r es, Registry.ReachedBy r {} sampleNeighbour es ∧
    recordCount r.state.portRecords.toList ≤ (10 : UInt32).toNat ∧
    ((r.inspect 10).pendingReferences.map (·.recordId) =
        r.state.portRecords.toList.flatMap (danglingAt r.state) ↔
      ∀ before entry after, r.state.portRecords.toList = before ++ entry :: after →
        danglingBehind r.state entry = [] ∧ (danglingAt r.state entry ≠ [] →
          before.countP (shownUnvalidated r.state r.limits) <
            max 1 r.limits.maxSnapshotEntries.toNat)) := by
  obtain ⟨r, es, hr, hp⟩ := Registry.exists_reached {} sampleNeighbour
    (fun r _ => decide (recordCount r.state.portRecords.toList ≤ (10 : UInt32).toNat))
    (by decide +kernel)
  have hroom := of_decide_eq_true hp
  exact ⟨r, es, hr, hroom, pending_complete_iff r 10 hroom⟩

/-- The record of the unregistered object is behind the other one and is not listed. -/
theorem neighbour_unlisted : ∃ r es, Registry.ReachedBy r {} sampleNeighbour es ∧
    recordCount r.state.portRecords.toList ≤ (10 : UInt32).toNat ∧
    (r.inspect 10).pendingReferences = [] ∧
    r.state.portRecords.toList.flatMap (danglingAt r.state) =
      [(.fromParts 1 4, .fromParts 0 1, 1, 4)] := by
  obtain ⟨r, es, hr, hp⟩ := Registry.exists_reached {} sampleNeighbour
    (fun r _ => decide (recordCount r.state.portRecords.toList ≤ (10 : UInt32).toNat ∧
      (r.inspect 10).pendingReferences = [] ∧
      r.state.portRecords.toList.flatMap (danglingAt r.state) =
        [(.fromParts 1 4, .fromParts 0 1, 1, 4)])) (by decide +kernel)
  exact ⟨r, es, hr, of_decide_eq_true hp⟩

/-! ### The refusal audit -/

/-- The last `n` elements of a list. -/
def mostRecent {α : Type} (n : Nat) (l : List α) : List α := l.drop (l.length - n)

theorem mostRecent_concat {α : Type} (n : Nat) (l : List α) (x : α) :
    mostRecent n (mostRecent n l ++ [x]) = mostRecent n (l ++ [x]) := by
  unfold mostRecent
  rw [List.drop_append, List.drop_append, List.drop_drop]
  simp only [List.length_append, List.length_drop, List.length_singleton]
  congr 2 <;> omega

theorem map_mostRecent {α β : Type} (f : α → β) (n : Nat) (l : List α) :
    mostRecent n (l.map f) = (mostRecent n l).map f := by
  simp [mostRecent, List.map_drop]

/-- The refusal of a record, with all that an audit has room for. -/
def refusalOf (e : Evidence) (result : IngestResult) : RefusalView :=
  ⟨e.header.id, e.kindOf, e.header.source, e.header.incarnation, e.header.generation,
    result.disposition, result.detail⟩

/-- The entry does not say which stream it is about. -/
def RefusalView.anonymous (v : RefusalView) : RefusalView :=
  { v with source := {}, incarnation := 0, generation := 0 }

namespace Registry

variable {r r₀ r₁ : Registry} {requests : List Request} {earlier : List RefusalView}

/-- What a registry that takes records refuses in a step. -/
def refusedBy (r : Registry) : Request → List RefusalView
  | .ingest e t io =>
    if !r.closed && !(r.ingest e t io).2.disposition.isAccepted then [refusalOf e (r.ingest e t io).2]
    else []
  | _ => []

/-- The refusals of the lifetime that a run ends in, oldest first, after earlier ones. -/
def refusalsOf (r : Registry) (earlier : List RefusalView) : List Request → List RefusalView
  | [] => earlier
  | q :: requests =>
    match r.step q with
    | .error _ => earlier
    | .ok r' => r'.refusalsOf (if isReopen q then [] else earlier ++ r.refusedBy q) requests

/-- What the audit keeps of a result. -/
def noted (result : IngestResult) : RefusalView where
  evidence := result.evidence
  kind := result.kind
  disposition := result.disposition
  detail := result.detail

theorem refusals_noteRefusal (r : Registry) (result : IngestResult) :
    (r.noteRefusal result).refusals =
      mostRecent r.limits.maxRefusalAudit.toNat (r.refusals ++ [noted result]) := rfl

/-- A result names its record, but not the stream of it. -/
theorem noted_ingest (r : Registry) (e : Evidence) (t : Timestamp) (io : Store.AppendIo) :
    noted (r.ingest e t io).2 = (refusalOf e (r.ingest e t io).2).anonymous := by
  have hnames : (r.ingest e t io).2.evidence = e.header.id ∧ (r.ingest e t io).2.kind = e.kindOf := by
    have hi := r.ingests e t true true io
    unfold ingest
    generalize r.ingestLocked e t true true io = answer at hi ⊢
    cases hi <;> exact ⟨rfl, rfl⟩
  rw [noted, hnames.1, hnames.2]
  rfl

/-- The audit holds the last of the given refusals, without their streams. -/
def Audits (r : Registry) (refusals : List RefusalView) : Prop :=
  r.refusals = (mostRecent r.limits.maxRefusalAudit.toNat refusals).map (·.anonymous)

theorem Audits.of_same (h : r.Audits earlier) (hrest : SameRest r r₁) : r₁.Audits earlier := by
  unfold Audits
  rw [hrest.limits, hrest.refusals]
  exact h

/-- **What a step leaves in the audit.** -/
theorem Audits.step {q : Request} (h : r.Audits earlier) (hstep : r.step q = .ok r₁) :
    r₁.Audits (if isReopen q then [] else earlier ++ r.refusedBy q) := by
  cases q with
  | openSession d i t t' io =>
    obtain rfl := Except.ok.inj hstep
    simpa [isReopen, refusedBy] using h.of_same (r.openSession_spec d i t t' io).1
  | closeSession key io =>
    obtain rfl := Except.ok.inj hstep
    simpa [isReopen, refusedBy] using h.of_same (r.closeSession_spec key io).1
  | ingest e t io =>
    obtain rfl := Except.ok.inj hstep
    have hlimits : (r.ingest e t io).1.limits = r.limits :=
      (r.ingestLocked_config e t true true io).limits
    have hrefusals : (r.ingest e t io).1.refusals =
        if !r.closed && !(r.ingest e t io).2.disposition.isAccepted then
          (r.noteRefusal (r.ingest e t io).2).refusals
        else r.refusals := r.refusals_ingestLocked e t true true io
    rw [Audits, hlimits, hrefusals]
    simp only [isReopen, refusedBy, Bool.false_eq_true, if_false]
    split
    · rw [refusals_noteRefusal, h, ← map_mostRecent, ← map_mostRecent, mostRecent_concat,
        noted_ingest, List.map_append]
      rfl
    · rw [List.append_nil]
      exact h
  | compact io =>
    obtain rfl := Except.ok.inj hstep
    simpa [isReopen, refusedBy] using h.of_same ((r.wrote_compact io).rest _)
  | reopen env =>
    have hnil := (kept_of_open hstep).2.2
    rw [Audits, hnil]
    simp [isReopen, mostRecent]

theorem Audits.run (h : r.Audits earlier) (hrun : r.run requests = .ok r₁) :
    r₁.Audits (r.refusalsOf earlier requests) := by
  induction requests generalizing r earlier with
  | nil =>
    obtain rfl : r = r₁ := Except.ok.inj hrun
    exact h
  | cons q requests ih =>
    obtain ⟨r₂, hstep, hrun⟩ := foldlM_cons_eq_ok.mp hrun
    simp only [refusalsOf, hstep]
    exact ih (h.step hstep) hrun

/-- **When the refusal audit is exact.**  After any run, from any disk, an inspection shows the last
refusals of the lifetime with their evidence, kind, stream, disposition and detail if and only if
the refused records among them name no source, incarnation or generation. -/
theorem refusal_audit_iff {options : RegistryOptions} {disk : Option (List UInt8)} {env : OpenEnv}
    (hopen : (Registry.open options disk env).2 = .ok r₀) (hrun : r₀.run requests = .ok r)
    (maxEntries : UInt32) :
    (r.inspect maxEntries).refusals =
        mostRecent r.limits.maxRefusalAudit.toNat (r₀.refusalsOf [] requests) ↔
      ∀ v ∈ mostRecent r.limits.maxRefusalAudit.toNat (r₀.refusalsOf [] requests),
        v.source = {} ∧ v.incarnation = 0 ∧ v.generation = 0 := by
  have hfirst : r₀.Audits [] := by
    rw [Audits, (kept_of_open hopen).2.2]
    simp [mostRecent]
  have haudit : (r.inspect maxEntries).refusals = _ := hfirst.run hrun
  rw [haudit]
  generalize mostRecent r.limits.maxRefusalAudit.toNat (r₀.refusalsOf [] requests) = shown
  nth_rewrite 2 [← List.map_id shown]
  rw [List.map_inj_left]
  refine forall₂_congr fun v _ => ?_
  obtain ⟨evidence, kind, source, incarnation, generation, disposition, detail⟩ := v
  simp [RefusalView.anonymous, eq_comm]

/-- A source that has opened no session publishes a record. -/
def sampleStranger : List Request := [sampleIngest 3 1 4 (sampleObject 9)]

theorem refusal_audit_iff_sample : ∃ r₀ r,
    (Registry.open {} none ⟨0, ⟨1, 2⟩, .written⟩).2 = .ok r₀ ∧ r₀.run sampleStranger = .ok r ∧
      ((r.inspect 8).refusals =
          mostRecent r.limits.maxRefusalAudit.toNat (r₀.refusalsOf [] sampleStranger) ↔
        ∀ v ∈ mostRecent r.limits.maxRefusalAudit.toNat (r₀.refusalsOf [] sampleStranger),
          v.source = {} ∧ v.incarnation = 0 ∧ v.generation = 0) := by
  obtain ⟨r₀, r, -, hopen, hrun, -⟩ := exists_run {} sampleStranger (fun _ _ => true)
    (by decide +kernel)
  exact ⟨r₀, r, hopen, hrun, refusal_audit_iff hopen hrun 8⟩

/-- The refusal is in the audit, under no source. -/
theorem stranger_unnamed : ∃ r₀ r,
    (Registry.open {} none ⟨0, ⟨1, 2⟩, .written⟩).2 = .ok r₀ ∧ r₀.run sampleStranger = .ok r ∧
      (r.inspect 8).refusals.map (·.source) = [{}] ∧
      (r₀.refusalsOf [] sampleStranger).map (·.source) = [.fromParts 0 3] := by
  obtain ⟨r₀, r, -, hopen, hrun, hp⟩ := exists_run {} sampleStranger
    (fun r₀ r => (r.inspect 8).refusals.map (·.source) == [{}] &&
      (r₀.refusalsOf [] sampleStranger).map (·.source) == [.fromParts 0 3]) (by decide +kernel)
  rw [Bool.and_eq_true, beq_iff_eq, beq_iff_eq] at hp
  exact ⟨r₀, r, hopen, hrun, hp⟩

end Registry

end CableRegistry
