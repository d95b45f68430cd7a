import CableRegistry.StoreRuns

/-!
# Rewriting a log step by step

`Store.rewrite` says what a rewrite comes to.  Here it is taken apart into what it asks of the
operating system: a temporary file is removed, created, written and flushed, the handle on the log
is released, the temporary is renamed over the log, and the log is opened again.  Each step can
fail, and the process can end after any of them.  The rename happens or leaves both files alone.

* `Rewriting.returned`: a rewrite that returns does what `Store.rewrite` says.
* `rewrite_atomic`: a crash leaves the old log or the new one, and an error leaves a store that
  goes on with the old log, unless the log was already replaced; then it takes no more records.
-/

namespace CableRegistry

variable {done : List StoreRecord} {header : List UInt8} {outcome : Outcome Unit}
  {record : StoreRecord}

namespace Store

/-! ### The steps -/

/-- What the operating system makes of one step.  A write that fails may leave some bytes. -/
inductive StepIo where
  | done
  | failed (error : Error) (written : Nat)

/-- What a rewrite does next. -/
inductive RewritePhase where
  | removeTemporary
  | createTemporary
  | writeHeader
  /-- Writes the frame of the next record, or flushes when there is none. -/
  | writeFrames (rest : List StoreRecord)
  | closeLog
  | replaceLog
  /-- The rename failed: the temporary is removed. -/
  | cleanUp (error : Error)
  /-- The old log is opened again. -/
  | restoreLog (error : Error)
  | reopenLog
  | returned (outcome : Outcome Unit)

/-- A rewrite on its way: the store with its log, the temporary beside it, and where the next frame
goes. -/
structure Rewriting where
  store : Store
  records : List StoreRecord
  temporary : Option (List UInt8)
  phase : RewritePhase
  offset : Nat := kHeaderBytes
  position : LogPosition := logStart
  written : Nat := 0

namespace Rewriting

/-- A rewrite begins, perhaps beside what an earlier one left. -/
def start (store : Store) (records : List StoreRecord) (temporary : Option (List UInt8)) : Rewriting where
  store := store
  records := records
  temporary := temporary
  phase :=
    if store.closed then .returned (makeError .closed "the store is closed")
    else if !store.replayed then
      .returned (makeError .internal "the store must be replayed before it is rewritten")
    else .removeTemporary

def fail (w : Rewriting) (error : Error) : Rewriting := { w with phase := .returned (.error error) }

/-- Writes to the temporary. -/
def write (w : Rewriting) (offset : Nat) (data : List UInt8) : Rewriting :=
  { w with temporary := some (writeAt (w.temporary.getD []) offset data) }

/-- The store after the rewrite succeeded. -/
def finished (w : Rewriting) : Store :=
  { w.store with
    handleOpen := true
    writeOffset := w.offset
    validEnd := w.offset
    nextSequence := w.position.sequence
    chain := w.position.chain
    bytesOnDisk := w.offset
    recordsWritten := 0
    recordsLoaded := w.written
    recordsSinceRewrite := 0
    rewriteCount := w.store.rewriteCount + 1 }

def step (w : Rewriting) (io : StepIo) : Rewriting :=
  match w.phase, io with
  | .removeTemporary, .done => { w with temporary := none, phase := .createTemporary }
  | .removeTemporary, .failed error _ => w.fail error
  | .createTemporary, .done => { w with temporary := some [], phase := .writeHeader }
  | .createTemporary, .failed error _ => w.fail error
  | .writeHeader, .done => { w.write 0 storeHeader with phase := .writeFrames w.records }
  | .writeHeader, .failed error n => (w.write 0 (storeHeader.take n)).fail error
  | .writeFrames (record :: rest), io =>
    let frame := recordFrame w.position record
    match checkRewrite w.store.options record, io with
    | .error error, _ => w.fail error
    | .ok (), .done =>
      { w.write w.offset frame with
        phase := .writeFrames rest
        offset := w.offset + frame.length
        position := nextPosition w.position record
        written := w.written + 1 }
    | .ok (), .failed error n => (w.write w.offset (frame.take n)).fail error
  | .writeFrames [], .done => { w with phase := .closeLog }
  | .writeFrames [], .failed error _ => w.fail error
  | .closeLog, _ => { w with store := { w.store with handleOpen := false }, phase := .replaceLog }
  | .replaceLog, .done =>
    { w with
      store := { w.store with file := w.temporary.getD [] }
      temporary := none
      phase := .reopenLog }
  | .replaceLog, .failed error _ => { w with phase := .cleanUp error }
  | .cleanUp error, .done => { w with temporary := none, phase := .restoreLog error }
  | .cleanUp error, .failed _ _ => { w with phase := .restoreLog error }
  | .restoreLog error, .done => { w with store := { w.store with handleOpen := true } }.fail error
  | .restoreLog error, .failed _ _ => w.fail error
  | .reopenLog, .done => { w with store := w.finished, phase := .returned (.ok ()) }
  | .reopenLog, .failed error _ => w.fail error
  | .returned _, _ => w

def run (w : Rewriting) (ios : List StepIo) : Rewriting := ios.foldl step w

/-! ### What holds on the way -/

/-- The store takes a rewrite. -/
def Begun (store : Store) : Prop := store.closed = false ∧ store.replayed = true

def Checked (options : StoreOptions) (records : List StoreRecord) : Prop :=
  ∀ record ∈ records, checkRewrite options record = .ok ()

/-- The frames of some records are in the temporary, and the next one goes behind them. -/
structure Drafted (w : Rewriting) (options : StoreOptions) (done : List StoreRecord) : Prop where
  temporary : w.temporary = some (rewritten options done)
  offset : w.offset = (rewritten options done).length
  position : w.position = positionAfter options done
  written : w.written = done.length
  checked : Checked options done

/-- What holds of a rewrite of the given store in each phase. -/
def Sound (store : Store) (records : List StoreRecord) (w : Rewriting) : Prop :=
  w.records = records ∧
  match w.phase with
  | .removeTemporary | .createTemporary =>
    Begun store ∧ w.store = store ∧ w.offset = kHeaderBytes ∧ w.position = logStart ∧ w.written = 0
  | .writeHeader =>
    Begun store ∧ w.store = store ∧ w.temporary = some [] ∧ w.offset = kHeaderBytes ∧
      w.position = logStart ∧ w.written = 0
  | .writeFrames rest =>
    Begun store ∧ w.store = store ∧ ∃ done, records = done ++ rest ∧ w.Drafted store.options done
  | .closeLog => Begun store ∧ w.store = store ∧ w.Drafted store.options records
  | .replaceLog =>
    Begun store ∧ w.store = { store with handleOpen := false } ∧ w.Drafted store.options records
  | .cleanUp _ | .restoreLog _ =>
    Begun store ∧ w.store = { store with handleOpen := false } ∧ Checked store.options records
  | .reopenLog =>
    Begun store ∧
      w.store = { store with file := rewritten store.options records, handleOpen := false } ∧
      w.offset = (rewritten store.options records).length ∧
      w.position = positionAfter store.options records ∧ w.written = records.length ∧
      Checked store.options records
  | .returned outcome => ∃ io, store.rewrite records io = (w.store, outcome)

section Outcomes

variable {store : Store} {options : StoreOptions} {records : List StoreRecord}

theorem forM_of_refused {rest : List StoreRecord} {error : Error} (h : Checked options done)
    (hrecord : checkRewrite options record = .error error) :
    (done ++ record :: rest).forM (checkRewrite options) = .error error := by
  induction done with
  | nil =>
    have hcons : (record :: rest).forM (checkRewrite options) =
        (checkRewrite options record >>= fun _ => rest.forM (checkRewrite options)) := rfl
    rw [List.nil_append, hcons, hrecord]
    rfl
  | cons first done ih =>
    have hcons : (first :: (done ++ record :: rest)).forM (checkRewrite options) =
        (checkRewrite options first >>= fun _ =>
          (done ++ record :: rest).forM (checkRewrite options)) := rfl
    rw [Checked, List.forall_mem_cons] at h
    rw [List.cons_append, hcons, h.1]
    exact ih h.2

/-- A store that takes a rewrite does what the operating system lets it. -/
theorem rewrite_begun (h : Begun store) (io : RewriteIo) :
    store.rewrite records io =
      match io, records.forM (checkRewrite store.options) with
      | .failed error, _ => (store, .error error)
      | _, .error error => (store, .error error)
      | .notReplaced restored error, _ => ({ store with handleOpen := restored }, .error error)
      | .notReopened error, _ =>
        ({ store with file := rewritten store.options records, handleOpen := false }, .error error)
      | .done, _ => store.rewrite records .done := by
  obtain ⟨hclosed, hreplayed⟩ := h
  unfold rewrite
  simp only [hclosed, hreplayed, Bool.not_true, Bool.false_eq_true, if_false]
  cases io <;> cases records.forM (checkRewrite store.options) <;> rfl

end Outcomes

section Step

variable {store : Store} {records : List StoreRecord} {w : Rewriting}

/-- A step that fails early leaves the store as it was. -/
theorem Sound.fail (hrecords : w.records = records) (hb : Begun store) (hs : w.store = store)
    (error : Error) : Sound store records (w.fail error) :=
  ⟨hrecords, .failed error, by rw [rewrite_begun hb, ← hs]; rfl⟩

/-- The frame of a record that passes the checks goes behind the others. -/
theorem Drafted.next {options : StoreOptions} (h : w.Drafted options done)
    (hcheck : checkRewrite options record = .ok ()) (phase : RewritePhase) :
    Drafted { w.write w.offset (recordFrame w.position record) with
      phase := phase
      offset := w.offset + (recordFrame w.position record).length
      position := nextPosition w.position record
      written := w.written + 1 } options (done ++ [record]) := by
  have hrewritten : rewritten options (done ++ [record]) =
      rewritten options done ++ recordFrame (positionAfter options done) record := by
    have hframes := frames_concat options done record
    unfold frames at hframes
    unfold rewritten
    rw [hframes, List.append_assoc]
  refine ⟨?_, ?_, ?_, ?_, ?_⟩
  · simp only [write, h.temporary, h.offset, h.position, hrewritten, Option.getD_some, writeAt,
      List.take_length, Nat.sub_self, List.replicate_zero, List.append_nil]
    rw [List.drop_of_length_le (Nat.le_add_right _ _), List.append_nil]
  · simp only [h.offset, h.position, hrewritten, List.length_append]
  · simp only [h.position, positionAfter_concat]
  · simp only [h.written, List.length_append, List.length_singleton]
  · exact List.forall_mem_append.mpr ⟨h.checked, List.forall_mem_singleton.mpr hcheck⟩

theorem Sound.start (store : Store) (records : List StoreRecord) (temporary : Option (List UInt8)) :
    Sound store records (start store records temporary) := by
  refine ⟨rfl, ?_⟩
  unfold Rewriting.start
  by_cases hclosed : store.closed = true
  · simp only [hclosed, if_true]
    exact ⟨.done, by simp [rewrite, hclosed]⟩
  by_cases hreplayed : store.replayed = true
  · rw [if_neg hclosed, if_neg (by simp [hreplayed])]
    exact ⟨⟨Bool.eq_false_of_not_eq_true hclosed, hreplayed⟩, rfl, rfl, rfl, rfl⟩
  · simp only [hclosed, hreplayed, Bool.false_eq_true, Bool.not_false, if_false, if_true]
    exact ⟨.done, by simp [rewrite, hclosed, hreplayed]⟩

/-- **Every step keeps what holds.** -/
theorem Sound.step (h : Sound store records w) (io : StepIo) : Sound store records (w.step io) := by
  obtain ⟨hrecords, h⟩ := h
  obtain ⟨log, found, temporary, phase, offset, position, written⟩ := w
  cases phase with
  | removeTemporary =>
    obtain ⟨hb, hs, hrest⟩ := h
    cases io with
    | done => exact ⟨hrecords, hb, hs, hrest⟩
    | failed error n => exact .fail hrecords hb hs error
  | createTemporary =>
    obtain ⟨hb, hs, hrest⟩ := h
    cases io with
    | done => exact ⟨hrecords, hb, hs, rfl, hrest⟩
    | failed error n => exact .fail hrecords hb hs error
  | writeHeader =>
    obtain ⟨hb, hs, rfl, hoffset, hposition, hwritten⟩ := h
    cases io with
    | done => exact ⟨hrecords, hb, hs, [], hrecords ▸ rfl, rfl, hoffset, hposition, hwritten, by simp [Checked]⟩
    | failed error n => exact .fail hrecords hb hs error
  | writeFrames rest =>
    obtain ⟨hb, rfl, done, hsplit, hdrafted⟩ := h
    cases rest with
    | nil =>
      obtain rfl : records = done := by rw [hsplit, List.append_nil]
      cases io with
      | done => exact ⟨hrecords, hb, rfl, hdrafted.temporary, hdrafted.offset, hdrafted.position,
          hdrafted.written, hdrafted.checked⟩
      | failed error n => exact .fail hrecords hb rfl error
    | cons record rest =>
      simp only [Rewriting.step]
      cases hcheck : checkRewrite log.options record with
      | error error =>
        refine ⟨hrecords, .done, ?_⟩
        rw [rewrite_begun hb, hsplit, forM_of_refused hdrafted.checked hcheck]
        rfl
      | ok _ =>
        cases io with
        | done =>
          refine ⟨hrecords, hb, rfl, done ++ [record], ?_, hdrafted.next hcheck _⟩
          rw [hsplit, List.append_assoc]
          rfl
        | failed error n => exact .fail hrecords hb rfl error
  | closeLog =>
    obtain ⟨hb, rfl, hdrafted⟩ := h
    exact ⟨hrecords, hb, rfl, hdrafted.temporary, hdrafted.offset, hdrafted.position,
      hdrafted.written, hdrafted.checked⟩
  | replaceLog =>
    obtain ⟨hb, rfl, rfl, hoffset, hposition, hwritten, hchecked⟩ := h
    cases io with
    | done => exact ⟨hrecords, hb, rfl, hoffset, hposition, hwritten, hchecked⟩
    | failed error n => exact ⟨hrecords, hb, rfl, hchecked⟩
  | cleanUp error =>
    cases io <;> exact ⟨hrecords, h⟩
  | restoreLog error =>
    obtain ⟨hb, rfl, hchecked⟩ := h
    cases io with
    | done =>
      refine ⟨hrecords, .notReplaced true error, ?_⟩
      rw [rewrite_begun hb, forM_checkRewrite.mpr hchecked]
      rfl
    | failed error' n =>
      refine ⟨hrecords, .notReplaced false error, ?_⟩
      rw [rewrite_begun hb, forM_checkRewrite.mpr hchecked]
      rfl
  | reopenLog =>
    obtain ⟨hb, rfl, rfl, rfl, rfl, hchecked⟩ := h
    cases io with
    | done =>
      refine ⟨hrecords, .done, ?_⟩
      unfold rewrite
      simp only [hb.1, hb.2, forM_checkRewrite.mpr hchecked, Bool.not_true, Bool.false_eq_true, if_false]
      rfl
    | failed error n =>
      refine ⟨hrecords, .notReopened error, ?_⟩
      rw [rewrite_begun hb, forM_checkRewrite.mpr hchecked]
      rfl
  | returned outcome => exact ⟨hrecords, h⟩

theorem Sound.run (h : Sound store records w) (ios : List StepIo) : Sound store records (w.run ios) := by
  induction ios generalizing w with
  | nil => exact h
  | cons io ios ih => exact ih (h.step io)

/-- **A rewrite that returns does what `Store.rewrite` says.** -/
theorem returned (store : Store) (records : List StoreRecord) (temporary : Option (List UInt8))
    (ios : List StepIo) {outcome : Outcome Unit}
    (h : ((start store records temporary).run ios).phase = .returned outcome) :
    ∃ io, store.rewrite records io = (((start store records temporary).run ios).store, outcome) := by
  obtain ⟨-, hsound⟩ := (Sound.start store records temporary).run ios
  rw [h] at hsound
  exact hsound

/-- The log is the old one, or the new one was renamed over it. -/
theorem Sound.log (h : Sound store records w) :
    w.store.file = store.file ∨
      (w.store.file = rewritten store.options records ∧ Checked store.options records) := by
  obtain ⟨-, h⟩ := h
  obtain ⟨log, found, temporary, phase, offset, position, written⟩ := w
  have hold : ∀ handleOpen, log = { store with handleOpen := handleOpen } → log.file = store.file := by
    intro handleOpen hs
    rw [hs]
  cases phase with
  | reopenLog => exact .inr ⟨congrArg Store.file h.2.1, h.2.2.2.2.2⟩
  | returned outcome =>
    obtain ⟨io, hio⟩ := h
    rcases rewrite_cases store records io with ⟨handleOpen, error, heq⟩ |
      ⟨hcheck, ⟨error, -, heq⟩ | ⟨store', heq, hfile, -⟩⟩
    · exact .inl (hold handleOpen (congrArg Prod.fst (hio.symm.trans heq)))
    · exact .inr ⟨congrArg (·.1.file) (hio.symm.trans heq), hcheck⟩
    · exact .inr ⟨(congrArg (·.1.file) (hio.symm.trans heq)).trans hfile, hcheck⟩
  | replaceLog => exact .inl (hold _ h.2.1)
  | cleanUp error => exact .inl (hold _ h.2.1)
  | restoreLog error => exact .inl (hold _ h.2.1)
  | _ => exact .inl (hold store.handleOpen h.2.1)

end Step

end Rewriting

/-! ### Crashes and errors -/

/-- The two files of a store. -/
structure Disk where
  log : List UInt8
  temporary : Option (List UInt8)

/-- Opens the log beside a leftover temporary, which was never committed and is removed first.
`removed` says whether it could be. -/
def openBeside (options : StoreOptions) (disk : Disk) (removed : Outcome Unit) : Opening :=
  match disk.temporary, removed with
  | some _, .error error =>
    ⟨{ formatVersion := kStoreFormatVersion, issue := .ioFailure, detail := error.message },
      some disk.log, .error error⟩
  | _, _ => Store.open options (some disk.log)

/-- The log opens cleanly, whatever lies beside it, and holds the records. -/
def LogOf (bound : Nat) (file : List UInt8) (records : List StoreRecord) : Prop :=
  ∀ options temporary, Usable options → bound ≤ options.maxRecordBytes.toNat →
    (openBeside options ⟨file, temporary⟩ (.ok ())).report.issue = .cleanOpen ∧
    ∃ opened replayed, (openBeside options ⟨file, temporary⟩ (.ok ())).outcome = .ok opened ∧
      opened.visitRecords collect [] = .ok (replayed, records)

section Crash

variable {store : Store} {bound : Nat} {records records' : List StoreRecord}

theorem logOf_frames (hbound : bound ≤ Encoder.kMaxEncodedBytes) {header : List UInt8}
    (hh : HeaderOk header) (options : StoreOptions)
    (hrecords : ∀ record ∈ records, validRecordKind record.kind = true ∧ record.payload.length ≤ bound) :
    LogOf bound (header ++ frames options records) records := by
  intro options' temporary ho hoptions
  have hfits : ∀ r ∈ records, FitsFrame options'.maxRecordBytes r := fun r hr =>
    fits_within hbound (hrecords r hr).1 (hrecords r hr).2 hoptions
  obtain ⟨report, ⟨-, hissue, -⟩, hopen⟩ := open_log ho hh hfits
  have hbeside : openBeside options' ⟨header ++ frames options records, temporary⟩ (.ok ()) =
      Store.open options' (some (header ++ frames options' records)) := by
    rw [frames_options options options']
    cases temporary <;> rfl
  rw [hbeside, hopen]
  exact ⟨hissue, _, _, rfl, (holds_ofScan ho hh hfits none).collects rfl rfl⟩

/-- Appends put their records behind those of the log, whatever they leave behind these. -/
theorem Holds.attempted {header stale : List UInt8} (h : store.Holds header records stale)
    (attempts : List Attempt) (hsize : ∀ a ∈ attempts, a.record.payload.length + 56 < 2 ^ 32) :
    ∃ stale', (store.attemptAll attempts).Holds header (records ++ store.acknowledged attempts) stale' := by
  induction attempts generalizing store records stale with
  | nil =>
    refine ⟨stale, ?_⟩
    rw [acknowledged, List.append_nil]
    exact h
  | cons a attempts ih =>
    rw [List.forall_mem_cons] at hsize
    have hfold : store.attemptAll (a :: attempts) =
        (store.append a.record a.io).1.attemptAll attempts := rfl
    rw [hfold, acknowledged]
    rcases append_cases store hsize.1 a.io with ⟨hfit, -, happ⟩ | ⟨error, happ⟩ | ⟨-, -, error, happ⟩
    · obtain ⟨stale', hrun⟩ := ih (h.advance hfit) hsize.2
      rw [happ]
      refine ⟨stale', ?_⟩
      rwa [List.append_assoc] at hrun
    · rw [happ]
      exact ih h hsize.2
    · rw [happ]
      exact ih (h.leave _) hsize.2

/-- A store that lost its handle takes no record and leaves the log alone. -/
theorem attempted_closed (h : store.handleOpen = false) (attempts : List Attempt) :
    store.acknowledged attempts = [] ∧ store.attemptAll attempts = store := by
  have happ : ∀ a : Attempt, ∃ error, store.append a.record a.io = (store, .error error) := by
    intro a
    unfold append
    simp only [h, Bool.not_false, if_true]
    split_ifs <;> exact ⟨_, rfl⟩
  induction attempts with
  | nil => exact ⟨rfl, rfl⟩
  | cons a attempts ih =>
    obtain ⟨error, ha⟩ := happ a
    have hfold : store.attemptAll (a :: attempts) =
        (store.append a.record a.io).1.attemptAll attempts := rfl
    rw [hfold, acknowledged, ha]
    exact ih

/-- **A rewrite is atomic.**  The log of a run is rewritten, and each step of the rewrite succeeds
or fails.  Wherever the process ends, the log holds exactly the old records or exactly the new
ones.  Where the rewrite returns an error, the log is the old one, and appends, so far as they
are acknowledged, put their records behind the old ones; or else the new log was renamed over
it, and no record is acknowledged any more. -/
theorem rewrite_atomic {options : StoreOptions} {disk : Option (List UInt8)} (hnew : disk.getD [] = [])
    {opened store store' : Store} {σ : Type} {visit : σ → StoreRecord → σ × Bool} {s s' : σ}
    (hopen : (Store.open options disk).outcome = .ok opened)
    (hreplay : opened.visitRecords visit s = .ok (store, s')) {bound : Nat}
    (hbound : bound ≤ Encoder.kMaxEncodedBytes) (hoptions : bound ≤ options.maxRecordBytes.toNat)
    {cs : List Call} (hwithin : ∀ c ∈ cs, c.Within bound) (hcalls : store.calls cs = .ok store')
    {records : List StoreRecord} (hrecords : ∀ record ∈ records, record.payload.length ≤ bound)
    (temporary : Option (List UInt8)) (ios : List StepIo) :
    (LogOf bound ((Rewriting.start store' records temporary).run ios).store.file (contents [] cs) ∨
      LogOf bound ((Rewriting.start store' records temporary).run ios).store.file records) ∧
    ∀ error last, ((Rewriting.start store' records temporary).run ios).phase = .returned (.error error) →
      last = ((Rewriting.start store' records temporary).run ios).store →
      (last.file = store'.file ∧ LogOf bound last.file (contents [] cs) ∧
        ∀ attempts : List Attempt, (∀ a ∈ attempts, a.record.payload.length ≤ bound) →
          (∃ header stale, (last.attemptAll attempts).Holds header
            (contents [] cs ++ last.acknowledged attempts) stale) ∧
          (last.acknowledged attempts = attempts.map (·.record) →
            LogOf bound (last.attemptAll attempts).file
              (contents [] cs ++ attempts.map (·.record)))) ∨
      (last.file = rewritten store'.options records ∧ LogOf bound last.file records ∧
        ∀ attempts : List Attempt, last.acknowledged attempts = [] ∧
          (last.attemptAll attempts).file = last.file) := by
  have hkeeps := (keeps_created hnew hopen hreplay hoptions).calls hbound hwithin hcalls
  obtain ⟨header, hholds⟩ := hkeeps.holds
  have hold : LogOf bound store'.file (contents [] cs) := by
    rw [hholds.file, List.append_nil]
    exact logOf_frames hbound hholds.headerOk _ fun r hr => ⟨(hholds.fits r hr).kind, hkeeps.within r hr⟩
  have hrewritten : Rewriting.Checked store'.options records →
      LogOf bound (rewritten store'.options records) records := fun hcheck =>
    logOf_frames hbound headerOk_storeHeader _ fun r hr =>
      ⟨(fits_of_checkRewrite (hcheck r hr) (length_lt_of_within hbound (hrecords r hr))).kind,
        hrecords r hr⟩
  have hsound := (Rewriting.Sound.start store' records temporary).run ios
  refine ⟨?_, ?_⟩
  · rcases hsound.log with hfile | ⟨hfile, hcheck⟩
    · exact .inl (hfile ▸ hold)
    · exact .inr (hfile ▸ hrewritten hcheck)
  rintro error last hreturned rfl
  obtain ⟨io, hio⟩ := Rewriting.returned store' records temporary ios hreturned
  rcases rewrite_cases store' records io with ⟨handleOpen, error', heq⟩ |
    ⟨hcheck, ⟨error', -, heq⟩ | ⟨store'', heq, -⟩⟩
  · left
    rw [(Prod.mk.inj (hio.symm.trans heq)).1]
    refine ⟨rfl, hold, ?_⟩
    intro attempts hattempts
    have hsize : ∀ a ∈ attempts, a.record.payload.length + 56 < 2 ^ 32 :=
      fun a ha => length_lt_of_within hbound (hattempts a ha)
    have hkept : Holds { store' with handleOpen := handleOpen } header (contents [] cs) [] :=
      hholds.flags _ _
    refine ⟨⟨header, hkept.attempted attempts hsize⟩, ?_⟩
    intro hacked
    obtain ⟨hextended, -⟩ := hkept.attemptAll attempts hacked hsize
    rw [hextended.file, List.append_nil]
    refine logOf_frames hbound hextended.headerOk _ fun r hr => ⟨(hextended.fits r hr).kind, ?_⟩
    rcases List.mem_append.mp hr with hr | hr
    · exact hkeeps.within r hr
    · obtain ⟨a, ha, rfl⟩ := List.mem_map.mp hr
      exact hattempts a ha
  · right
    rw [(Prod.mk.inj (hio.symm.trans heq)).1]
    refine ⟨rfl, hrewritten hcheck, ?_⟩
    intro attempts
    have hclosed : ({ store' with
        file := rewritten store'.options records, handleOpen := false } : Store).handleOpen = false := rfl
    obtain ⟨hacked, hsame⟩ := attempted_closed hclosed attempts
    exact ⟨hacked, by rw [hsame]⟩
  · exact absurd (congrArg Prod.snd (hio.symm.trans heq)) (by simp)

end Crash

/-- A rewrite with one record whose rename fails. -/
def sampleSteps : List StepIo :=
  [.done, .done, .done, .done, .done, .done, .failed ⟨.persistenceFailure, "rename"⟩ 0, .done, .done]

theorem rewrite_atomic_renamed :
    ∃ last, last = ((Rewriting.start sampleStore [sampleRecord] none).run sampleSteps).store ∧
      ((Rewriting.start sampleStore [sampleRecord] none).run sampleSteps).phase =
        .returned (.error ⟨.persistenceFailure, "rename"⟩) ∧
      ((last.file = sampleStore.file ∧ LogOf 0 last.file []) ∨
        (last.file = rewritten sampleOptions [sampleRecord] ∧ LogOf 0 last.file [sampleRecord])) := by
  have hphase : ((Rewriting.start sampleStore [sampleRecord] none).run sampleSteps).phase =
      .returned (.error ⟨.persistenceFailure, "rename"⟩) := rfl
  obtain ⟨-, herror⟩ := rewrite_atomic rfl open_sampleOptions replay_sampleOptions (Nat.zero_le _)
    (Nat.zero_le _) (List.forall_mem_nil _) (show sampleStore.calls [] = .ok sampleStore from rfl)
    (show ∀ record ∈ [sampleRecord], record.payload.length ≤ 0 by simp [sampleRecord]) none sampleSteps
  refine ⟨_, rfl, hphase, ?_⟩
  rcases herror _ _ hphase rfl with ⟨hfile, hlog, -⟩ | ⟨hfile, hlog, -⟩
  · exact .inl ⟨hfile, hlog⟩
  · exact .inr ⟨hfile, hlog⟩

end Store

end CableRegistry
