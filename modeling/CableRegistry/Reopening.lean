import CableRegistry.Reachable

/-!
# Registries on any disk

What does not depend on how a log came about.  A registry `Arises` when it is opened on some
disk, whatever that holds, and takes any requests; a request may fail on its way to the log, and
the log may be opened again after it did.

* `Arises.kept`: such a registry is configured by its options, its label index covers its
  registrations, and its refusal audit is within the limit.
-/

open Std

namespace CableRegistry

variable {requests : List Request} {r r₁ : Registry} {options : RegistryOptions}

namespace Registry

/-! ### The refusal audit -/

theorem length_noteRefusal_le (r : Registry) (result : IngestResult) :
    (r.noteRefusal result).refusals.length ≤ r.limits.maxRefusalAudit.toNat := by
  unfold noteRefusal
  dsimp only
  rw [List.length_drop]
  omega

/-- **What a record leaves in the audit**: its result where it was refused by a registry that takes
records, and only when it is live. -/
theorem refusals_ingestLocked (r : Registry) (e : Evidence) (t : Timestamp) (persist live : Bool)
    (io : Store.AppendIo) :
    (r.ingestLocked e t persist live io).1.refusals =
      if persist && !r.closed && !(r.ingestLocked e t persist live io).2.disposition.isAccepted then
        (r.noteRefusal (r.ingestLocked e t persist live io).2).refusals
      else r.refusals := by
  have hi := r.ingests e t persist live io
  generalize r.ingestLocked e t persist live io = answer at hi ⊢
  cases hi with
  | stopping hclosed => simp [hclosed]
  | refused hclosed hm =>
    have hrefused := admitRecord_eq_error hm
    unfold refuse
    cases persist <;> simp [hclosed, hrefused, noteRefusal]
  | @decided m committed hclosed _ hc =>
    unfold conclude
    dsimp only
    by_cases hnoted : (persist && !committed.2.1.isAccepted) = true
    · rw [if_pos hnoted, if_pos (by simpa [hclosed] using hnoted)]
      simp only [noteRefusal, touchSession, hc.refusals, hc.config.limits]
    · rw [if_neg hnoted, if_neg (by simpa [hclosed] using hnoted)]
      exact hc.refusals

theorem refusals_replayRecord {r' : Registry} {record : StoreRecord}
    (h : r.replayRecord record = .ok r') : r'.refusals = r.refusals := by
  rcases replayRecord_cases h with ⟨-, s, rfl⟩ | ⟨-, ⟨d, i, t, rfl⟩ | ⟨key, rfl⟩ | ⟨e, t, rfl⟩⟩
  · rfl
  · rfl
  · rfl
  · exact r.refusals_ingestLocked e t false false .written

theorem refusals_replayAll (records : List StoreRecord) {r' : Registry}
    (h : r.replayAll records = .ok r') : r'.refusals = r.refusals := by
  induction records generalizing r with
  | nil => rw [← Except.ok.inj (show (Except.ok r : Except String Registry) = .ok r' from h)]
  | cons record records ih =>
    obtain ⟨r₁, hr, h⟩ := foldlM_cons_eq_ok.mp h
    exact (ih h).trans (refusals_replayRecord hr)

/-! ### Opening -/

/-- What holds of a registry however its log came about. -/
structure Kept (r : Registry) : Prop where
  configured : r.Configured
  indexed : r.Indexed
  audit : r.refusals.length ≤ r.limits.maxRefusalAudit.toNat

/-- **A registry that has just been opened**, on whatever the disk held. -/
theorem kept_of_open {disk : Option (List UInt8)} {env : OpenEnv}
    (h : (Registry.open options disk env).2 = .ok r) :
    r.Kept ∧ r.options = options ∧ r.refusals = [] := by
  obtain ⟨_, hopens⟩ := opens_of_ok h
  cases hopens with
  | volatile => exact ⟨⟨⟨rfl, rfl, rfl⟩, fun i hi => absurd (show none = some i from hi) (by simp),
      Nat.zero_le _⟩, rfl, rfl⟩
  | @replayed _ _ records r₀ _ _ hreads _ hreplay =>
    have hs := Synced.of_replayed hreads.stored hreads.holds hreplay (r₀.mintId env.draw).state.id
    have hnil := refusals_replayAll records hreplay
    exact ⟨⟨hs.config, hs.indexed, hnil ▸ Nat.zero_le _⟩, (replayAll_config records hreplay).1.options,
      hnil⟩
  | created _ hreads =>
    obtain ⟨hoptions, records, hs, -⟩ := Synced.of_open hreads.stored h
    exact ⟨⟨hs.config, hs.indexed, Nat.zero_le _⟩, hoptions, rfl⟩

/-! ### Any requests -/

/-- The audit never holds more than its limit. -/
theorem Does.audit {q : Request} (h : Does r q r₁)
    (haudit : r.refusals.length ≤ r.limits.maxRefusalAudit.toNat) :
    r₁.refusals.length ≤ r.limits.maxRefusalAudit.toNat := by
  cases h with
  | wrote _ hwrote => exact (hwrote.rest r₁.state).refusals ▸ haudit
  | opened hwrote => exact (hwrote.rest _).refusals ▸ haudit
  | closed hwrote => exact (hwrote.rest _).refusals ▸ haudit
  | ingested e t io =>
    unfold ingest
    rw [r.refusals_ingestLocked e t true true io]
    split
    · exact length_noteRefusal_le r _
    · exact haudit

/-- **Any request, whatever becomes of it on its way to the log.** -/
theorem Kept.step {q : Request} (h : r.Kept) (hstep : r.step q = .ok r₁) :
    r₁.Kept ∧ r₁.options = r.options := by
  by_cases hq : ∃ env, q = .reopen env
  · obtain ⟨env, rfl⟩ := hq
    obtain ⟨hkept, hoptions, -⟩ := kept_of_open hstep
    exact ⟨hkept, hoptions⟩
  · have hdoes := does (not_exists.mp hq) hstep
    have hcfg := hdoes.frame.1
    exact ⟨⟨h.configured.of_same hcfg, hdoes.indexed h.indexed, hcfg.limits ▸ hdoes.audit h.audit⟩,
      hcfg.options⟩

theorem Kept.run (h : r.Kept) (hrun : r.run requests = .ok r₁) :
    r₁.Kept ∧ r₁.options = r.options := by
  induction requests generalizing r with
  | nil =>
    obtain rfl : r = r₁ := Except.ok.inj hrun
    exact ⟨h, rfl⟩
  | cons q requests ih =>
    obtain ⟨r₂, hstep, hrun⟩ := foldlM_cons_eq_ok.mp hrun
    obtain ⟨hkept, hoptions⟩ := h.step hstep
    obtain ⟨hkept', hoptions'⟩ := ih hkept hrun
    exact ⟨hkept', hoptions'.trans hoptions⟩

/-- The registry was opened on some disk and has taken some requests since. -/
def Arises (r : Registry) (options : RegistryOptions) : Prop :=
  ∃ disk env r₀ requests, (Registry.open options disk env).2 = .ok r₀ ∧ r₀.run requests = .ok r

/-- **What holds of every registry that arises.** -/
theorem Arises.kept (h : r.Arises options) :
    r.Kept ∧ r.options = options := by
  obtain ⟨disk, env, r₀, requests, hopen, hrun⟩ := h
  obtain ⟨hkept, hoptions, -⟩ := kept_of_open hopen
  obtain ⟨hkept', hoptions'⟩ := hkept.run hrun
  exact ⟨hkept', hoptions'.trans hoptions⟩

theorem ReachedBy.arises {es : List Evidence} (h : r.ReachedBy options requests es) :
    r.Arises options := by
  obtain ⟨-, disk, env, r₀, -, hopen, hrun, -⟩ := h
  exact ⟨disk, env, r₀, requests, hopen, hrun⟩

end Registry

end CableRegistry
