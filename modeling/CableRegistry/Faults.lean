import CableRegistry.Recovery

/-!
# Damage and failed writes

Two things can go wrong with a log.  A byte of it changes: no frame with one byte
changed is recognised (`scanRecord_damaged`), because the checksum sees the change, or
because the length field disagrees with the payload length.  Whether opening refuses or
truncates the log then depends on the length field alone.  Or an append fails: it leaves
the front of a frame behind the write offset, which reads as a torn tail when it is the
last thing in the file.
-/

namespace CableRegistry

/-! ### One changed byte -/

variable {late : List Attempt} {records : List StoreRecord} {header rest stale : List UInt8}
  {position : LogPosition} {i : Nat} {store : Store} {options : StoreOptions} {record : StoreRecord}
  {maxRecordBytes : UInt64} {b : UInt8}

/-- What a stop of the scan says about the tail is read off the length field. -/
theorem scanRecord_tailIncomplete {stop : ScanStop} (hlen : 24 ≤ rest.length)
    (h : scanRecord maxRecordBytes position rest = .error stop) :
    stop.tailIncomplete = true ↔ rest.length < load 4 rest 0 + 4 := by
  simp only [scanRecord, refuseIf_bind_eq_error, kRecordHeaderBytes, Nat.reduceAdd] at h
  rcases h with ⟨hshort, -⟩ | ⟨-, h⟩
  · exact absurd (of_decide_eq_true hshort) (by omega)
  rcases h with ⟨hlong, rfl⟩ | ⟨hfits, h⟩
  · exact ⟨fun _ => of_decide_eq_true hlong, fun _ => rfl⟩
  have hnot : ¬ rest.length < load 4 rest 0 + 4 := by simpa using hfits
  simp only [hnot, iff_false, Bool.not_eq_true]
  rcases h with ⟨-, rfl⟩ | ⟨-, ⟨-, rfl⟩ | ⟨-, ⟨-, rfl⟩ | ⟨-, ⟨-, rfl⟩ | ⟨-, ⟨-, rfl⟩ |
    ⟨-, ⟨-, rfl⟩ | ⟨-, ⟨-, rfl⟩ | ⟨-, ⟨-, rfl⟩ | ⟨-, ⟨-, rfl⟩ | ⟨-, h⟩⟩⟩⟩⟩⟩⟩⟩⟩
  all_goals first
    | rfl
    | simp [pure, Except.pure] at h

/-- Two frames of one length at one position that differ in at most one byte are the
same. -/
theorem recordFrame_set {record' : StoreRecord}
    (hlen : record'.payload.length = record.payload.length)
    (h : recordFrame position record' = (recordFrame position record).set i b) :
    recordFrame position record' = recordFrame position record := by
  have hbody := length_frameBody position record
  have hbody' := length_frameBody position record'
  rw [recordFrame, recordFrame, eq_of_sealed_set (by omega) h]

/-- A field that the changed byte is not part of. -/
theorem slice_set {bytes : List UInt8} {offset width : Nat} (h : i < offset ∨ offset + width ≤ i) :
    slice (bytes.set i b) offset width = slice bytes offset width := by
  simp only [slice, List.drop_set]
  split
  · rfl
  · rw [List.take_set, List.set_eq_of_length_le]
    rw [List.length_take]
    omega

/-- **No frame with a changed byte is recognised.** -/
theorem scanRecord_damaged (hfit : FitsFrame maxRecordBytes record)
    (hi : i < (recordFrame position record).length) (hb : b ≠ (recordFrame position record)[i])
    (tail : List UInt8) :
    ∃ stop, scanRecord maxRecordBytes position ((recordFrame position record).set i b ++ tail) =
      .error stop := by
  cases hs : scanRecord maxRecordBytes position ((recordFrame position record).set i b ++ tail) with
  | error stop => exact ⟨stop, rfl⟩
  | ok found =>
    exfalso
    obtain ⟨record', n⟩ := found
    obtain ⟨hfit', hn, heq⟩ := scanRecord_sound hs
    -- The payload length is in the frame twice; one changed byte cannot change both.
    have hlen : record'.payload.length = record.payload.length := by
      have hshort := hfit.length
      have hshort' := hfit'.length
      have hmoved : (recordFrame position record).set i b ++ tail =
          (recordFrame position record ++ tail).set i b := by
        rw [List.set_append_left _ _ hi]
      have hload : load 4 (recordFrame position record' ++ List.drop n
          ((recordFrame position record).set i b ++ tail)) =
          load 4 ((recordFrame position record ++ tail).set i b) := by
        rw [← heq, hmoved]
      by_cases h4 : i < 4
      · have h16 := congrFun hload 16
        rw [load_frame_payloadBytes _ _ _ (by omega), load_eq, slice_set (by omega), ← load_eq,
          load_frame_payloadBytes _ _ _ (by omega)] at h16
        exact h16
      · have h0 := congrFun hload 0
        rw [load_frame_length _ _ _ hshort', load_eq, slice_set (by omega), ← load_eq,
          load_frame_length _ _ _ hshort] at h0
        omega
    have hframes : recordFrame position record' = (recordFrame position record).set i b := by
      refine (List.append_inj heq ?_).1.symm
      rw [List.length_set, length_recordFrame, length_recordFrame, hlen]
    have hsame := recordFrame_set hlen hframes
    rw [hsame] at hframes
    have hbyte := congrArg (fun l : List UInt8 => l[i]?) hframes
    simp only [List.getElem?_set_self hi, List.getElem?_eq_getElem hi, Option.some.injEq] at hbyte
    exact hb hbyte.symm

namespace Store

/-! ### Sequences of appends -/

/-- A call of `append`, with what becomes of the write. -/
structure Attempt where
  record : StoreRecord
  io : AppendIo := .written

/-- The store after a list of appends. -/
def attemptAll (store : Store) (attempts : List Attempt) : Store :=
  attempts.foldl (fun store a => (store.append a.record a.io).1) store

/-- The records whose append reports success, in order. -/
def acknowledged (store : Store) : List Attempt → List StoreRecord
  | [] => []
  | a :: attempts =>
    (if (store.append a.record a.io).2.isOk then [a.record] else []) ++
      (store.append a.record a.io).1.acknowledged attempts

/-- Where in the file the frame after the given records starts. -/
def recordStart (options : StoreOptions) (before : List StoreRecord) : Nat :=
  kHeaderBytes + (frames options before).length

theorem length_acknowledged_le (attempts : List Attempt) (store : Store) :
    (store.acknowledged attempts).length ≤ attempts.length := by
  induction attempts generalizing store with
  | nil => exact Nat.le_refl _
  | cons a attempts ih =>
    have h := ih (store.append a.record a.io).1
    rw [acknowledged, List.length_append, List.length_cons]
    split <;> simp <;> omega

/-- A log all of whose appends were acknowledged holds their records and nothing else. -/
theorem Holds.attemptAll (attempts : List Attempt) (h : store.Holds header records [])
    (hacked : store.acknowledged attempts = attempts.map (·.record))
    (hsize : ∀ a ∈ attempts, a.record.payload.length + 56 < 2 ^ 32) :
    (store.attemptAll attempts).Holds header (records ++ attempts.map (·.record)) [] ∧
      (store.attemptAll attempts).options = store.options := by
  induction attempts generalizing store records with
  | nil =>
    rw [List.map_nil, List.append_nil]
    exact ⟨h, rfl⟩
  | cons a attempts ih =>
    rw [List.forall_mem_cons] at hsize
    rw [acknowledged, List.map_cons] at hacked
    have hok : (store.append a.record a.io).2.isOk = true := by
      by_contra hno
      rw [if_neg hno, List.nil_append] at hacked
      have hle := length_acknowledged_le attempts (store.append a.record a.io).1
      rw [hacked] at hle
      simp at hle
    obtain ⟨hfit, happ⟩ := append_acknowledged hsize.1 hok
    rw [if_pos hok, happ] at hacked
    have hnext := h.advance hfit
    rw [List.drop_nil] at hnext
    have hrun := ih hnext (List.cons.inj hacked).2 hsize.2
    rw [List.append_assoc] at hrun
    have hfold : store.attemptAll (a :: attempts) = (store.advance a.record).attemptAll attempts := by
      simp only [Store.attemptAll, List.foldl_cons, happ]
    rw [hfold]
    exact hrun

/-- A store that was opened and replayed holds a clean log. -/
theorem holds_of_open {disk : Option (List UInt8)} {opened : Store} {σ : Type}
    {visit : σ → StoreRecord → σ × Bool} {s s' : σ}
    (hopen : (Store.open options disk).outcome = .ok opened)
    (hreplay : opened.visitRecords visit s = .ok (store, s')) :
    ∃ header records, store.Holds header records [] ∧ store.options = options ∧
      s' = visitAll visit s records ∧ store.closed = false ∧ store.replayed = true ∧
      (disk.getD [] = [] → records = []) := by
  obtain ⟨header, records, hholds, hoptions, hclosed, hhandle, hreplayed, hdisk, hcase⟩ :=
    open_eq_ok hopen
  rw [hholds.visitRecords visit hclosed hreplayed s, Except.ok.injEq, Prod.mk.injEq] at hreplay
  obtain ⟨rfl, rfl⟩ := hreplay
  refine ⟨header, records, hholds.flags _ _, hoptions, rfl, hclosed, rfl, ?_⟩
  intro hnew
  rcases hcase with ⟨-, -, hnil⟩ | ⟨hold, -⟩
  · exact hnil
  · exact absurd hnew hold

/-! ### Opening a damaged log -/

/-- The parts of a log around one of its frames. -/
theorem frames_split (options : StoreOptions) (header : List UInt8) (before after : List StoreRecord)
    (record : StoreRecord) :
    header ++ frames options (before ++ record :: after) =
      header ++ frames options before ++ (recordFrame (positionAfter options before) record ++
        (storeFormat options.maxRecordBytes).encode
          (nextPosition (positionAfter options before) record) after) := by
  rw [frames, LogFormat.encode_append, ← List.append_assoc]
  rfl

theorem length_before (options : StoreOptions) (hh : header.length = kHeaderBytes)
    (before : List StoreRecord) :
    (header ++ frames options before).length = recordStart options before := by
  rw [List.length_append, hh]
  rfl

/-- **A strict open of a log in which one byte of a record changed** cuts the log off before the
record if the byte is in the length field and the new length reaches past the end of the file.
Otherwise it refuses the log. -/
theorem open_damaged (ho : Usable options) (hstrict : options.recoveryPolicy = .strict)
    (hh : HeaderOk header) {before : List StoreRecord}
    (hg : ∀ r ∈ before, FitsFrame options.maxRecordBytes r)
    (hfit : FitsFrame options.maxRecordBytes record)
    (hi : i < (recordFrame (positionAfter options before) record).length)
    (hb : b ≠ (recordFrame (positionAfter options before) record)[i]) {tail file : List UInt8}
    (hfile : file = header ++ frames options before ++
      ((recordFrame (positionAfter options before) record).set i b ++ tail)) :
    ((i < 4 ∧ file.length < recordStart options before +
        (load 4 file (recordStart options before) + 4)) ∧ ∃ report store,
      Store.open options (some file) = ⟨report, some (header ++ frames options before), .ok store⟩) ∨
    (¬ (i < 4 ∧ file.length < recordStart options before +
        (load 4 file (recordStart options before) + 4)) ∧ ∃ report error,
      Store.open options (some file) = ⟨report, some file, .error error⟩) := by
  obtain ⟨stop, hstop⟩ := scanRecord_damaged hfit hi hb tail
  have hbefore := length_before options hh.length before
  have hlength : ((recordFrame (positionAfter options before) record).set i b ++ tail).length =
      record.payload.length + 60 + tail.length := by
    rw [List.length_append, List.length_set, length_recordFrame]
  have htotal : file.length =
      recordStart options before + (record.payload.length + 60 + tail.length) := by
    rw [hfile, List.length_append, hbefore, hlength]
  have hload : load 4 file (recordStart options before) =
      load 4 ((recordFrame (positionAfter options before) record).set i b ++ tail) 0 := by
    rw [hfile, load_eq, slice_skip (by omega), hbefore, Nat.sub_self, load_eq]
  -- Outside the length field the record still ends where it did.
  have hfour : ¬ i < 4 → load 4 ((recordFrame (positionAfter options before) record).set i b ++ tail)
      0 = record.payload.length + 56 := by
    intro hge
    rw [← List.set_append_left _ _ hi, load_eq, slice_set (by omega), ← load_eq,
      load_frame_length _ _ _ hfit.length]
  have hcond : Recoverable options (some stop) ↔ i < 4 ∧ file.length <
      recordStart options before + (load 4 file (recordStart options before) + 4) := by
    have hgoes : Recoverable options (some stop) ↔ stop.tailIncomplete = true := by
      simp [Recoverable, hstrict]
    rw [hgoes, scanRecord_tailIncomplete (by omega) hstop, hload, htotal, hlength]
    constructor
    · intro hlt
      refine ⟨?_, by omega⟩
      by_contra hge
      rw [hfour hge] at hlt
      omega
    · rintro ⟨-, hlt⟩
      omega
  have hne : (recordFrame (positionAfter options before) record).set i b ++ tail ≠ [] := by
    intro hnil
    rw [hnil, List.length_nil] at hlength
    omega
  rw [← hcond, hfile]
  rcases open_of_stop ho hh hg hne hstop with ⟨hgoes, report, -, heq⟩ | hrefused
  · exact .inl ⟨hgoes, report, _, heq⟩
  · exact .inr hrefused

/-- **One changed byte.**  A log is written by appends that were all acknowledged, and
one byte of one of its records changes.  A strict open refuses the log and leaves the
file as it is, unless the byte is in the length field and the new length reaches past the
end of the file; then the open succeeds and cuts the log off before the record. -/
theorem open_strict_damaged_iff {options : StoreOptions} {disk : Option (List UInt8)}
    (hnew : disk.getD [] = []) {opened store : Store} {σ : Type}
    {visit : σ → StoreRecord → σ × Bool} {s s' : σ}
    (hopen : (Store.open options disk).outcome = .ok opened)
    (hreplay : opened.visitRecords visit s = .ok (store, s')) (attempts : List Attempt)
    (hacked : store.acknowledged attempts = attempts.map (·.record))
    (hsize : ∀ a ∈ attempts, a.record.payload.length + 56 < 2 ^ 32)
    (before after : List StoreRecord) (record : StoreRecord)
    (hrecords : attempts.map (·.record) = before ++ record :: after)
    (i : Nat) (hi : i < record.payload.length + 60) (b : UInt8)
    (hb : (store.attemptAll attempts).file[recordStart options before + i]? ≠ some b) :
    ((∃ error, (Store.open { options with recoveryPolicy := .strict }
        (some ((store.attemptAll attempts).file.set (recordStart options before + i) b))).outcome =
          .error error) ∧
      (Store.open { options with recoveryPolicy := .strict }
        (some ((store.attemptAll attempts).file.set (recordStart options before + i) b))).disk =
          some ((store.attemptAll attempts).file.set (recordStart options before + i) b)) ↔
    ¬ (i < 4 ∧ (store.attemptAll attempts).file.length <
      recordStart options before + (load 4
        ((store.attemptAll attempts).file.set (recordStart options before + i) b)
        (recordStart options before) + 4)) := by
  obtain ⟨header, records₀, hholds₀, hoptions, -, -, -, hnil⟩ := holds_of_open hopen hreplay
  obtain ⟨hholds, hoptions'⟩ := hholds₀.attemptAll attempts hacked hsize
  rw [hnil hnew, List.nil_append, hrecords] at hholds
  have hlen := hholds.headerOk.length
  have hfile := hholds.file
  rw [List.append_nil, hoptions', hoptions] at hfile
  have hfits := hholds.fits
  rw [hoptions', hoptions] at hfits
  have hi' : i < (recordFrame (positionAfter options before) record).length := by
    rwa [length_recordFrame]
  have hbefore := length_before options hlen before
  rw [frames_split options header before after record] at hfile
  have hfit := hfits record (by simp)
  generalize hframe : recordFrame (positionAfter options before) record = frame at hfile hi'
  generalize (storeFormat options.maxRecordBytes).encode
    (nextPosition (positionAfter options before) record) after = tail at hfile
  have hset : (store.attemptAll attempts).file.set (recordStart options before + i) b =
      header ++ frames options before ++ (frame.set i b ++ tail) := by
    rw [hfile, ← hbefore, List.set_append_right _ _ (by omega), Nat.add_sub_cancel_left,
      List.set_append_left _ _ hi']
  have hbyte : b ≠ frame[i] := by
    rintro rfl
    apply hb
    rw [hfile, ← hbefore, List.getElem?_append_right (by omega), Nat.add_sub_cancel_left,
      List.getElem?_append_left hi', List.getElem?_eq_getElem hi']
  subst hframe
  have husable := hholds.usable
  rw [hoptions', hoptions] at husable
  have hfront : ∀ r ∈ before, FitsFrame options.maxRecordBytes r :=
    fun r hr => hfits r (List.mem_append_left _ hr)
  rcases open_damaged (husable.withPolicy .strict) rfl hholds.headerOk hfront hfit hi' hbyte hset with
    ⟨hcond, report, opened', heq⟩ | ⟨hcond, report, error, heq⟩
  · rw [List.length_set] at hcond
    rw [heq]
    refine ⟨fun h => ?_, fun h => absurd hcond h⟩
    obtain ⟨⟨error, herror⟩, -⟩ := h
    cases herror
  · rw [List.length_set] at hcond
    rw [heq]
    exact ⟨fun _ => hcond, fun _ => ⟨⟨error, rfl⟩, rfl⟩⟩

/-! ### A changed length -/

/-- The visitor that collects the records. -/
def collect (seen : List StoreRecord) (record : StoreRecord) : List StoreRecord × Bool :=
  (seen ++ [record], true)

theorem visitAll_collect (records seen : List StoreRecord) :
    visitAll collect seen records = seen ++ records := by
  induction records generalizing seen with
  | nil => simp [visitAll]
  | cons record records ih => simp [visitAll, collect, ih]

/-- The replay of a store collects the records it holds. -/
theorem Holds.collects (h : store.Holds header records stale) (hclosed : store.closed = false)
    (hreplayed : store.replayed = false) :
    store.visitRecords collect [] = .ok ({ store with replayed := true }, records) := by
  rw [h.visitRecords collect hclosed hreplayed, visitAll_collect, List.nil_append]

/-- An append to a store that was replayed acknowledges a record that fits when nothing
goes wrong. -/
theorem append_written (hclosed : store.closed = false) (hreplayed : store.replayed = true)
    (hhandle : store.handleOpen = true) (hfit : FitsFrame store.options.maxRecordBytes record) :
    store.append record .written = (store.advance record, .ok ()) := by
  have hlimit : ¬ record.payload.length > store.options.maxRecordBytes.toNat :=
    Nat.not_lt.mpr hfit.limit
  have hlength : ¬ record.payload.length + kMinRecordBytes ≥ 2 ^ 64 := by
    have := hfit.length
    simp only [kMinRecordBytes, kRecordHeaderBytes, kRecordTrailerBytes, kChainBytes]
    omega
  simp only [append, hclosed, hreplayed, hfit.kind, hhandle, hlimit, hlength, Bool.not_true,
    Bool.false_eq_true, if_false]

def sampleOptions : StoreOptions := { path := "registry.log" }

/-- A new log, opened and replayed. -/
def sampleStore : Store :=
  { ofScan sampleOptions storeHeader ⟨[], logStart, 0, none⟩ with replayed := true }

def sampleRecord : StoreRecord := ⟨.evidence, []⟩

theorem usable_sampleOptions : Usable sampleOptions :=
  ⟨by decide +kernel, by decide, by decide⟩

theorem open_sampleOptions :
    (Store.open sampleOptions none).outcome =
      .ok (ofScan sampleOptions storeHeader ⟨[], logStart, 0, none⟩) := by
  obtain ⟨report, -, hopen⟩ := open_created usable_sampleOptions (show none.getD [] = [] from rfl)
  rw [hopen]

theorem replay_sampleOptions :
    (ofScan sampleOptions storeHeader ⟨[], logStart, 0, none⟩).visitRecords collect [] =
      .ok (sampleStore, []) := by
  rfl

/-- Records that fit are acknowledged when nothing goes wrong. -/
theorem acknowledged_written (records : List StoreRecord) (hclosed : store.closed = false)
    (hreplayed : store.replayed = true) (hhandle : store.handleOpen = true)
    (hfits : ∀ r ∈ records, FitsFrame store.options.maxRecordBytes r) :
    store.acknowledged (records.map fun r => ⟨r, .written⟩) = records := by
  induction records generalizing store with
  | nil => rfl
  | cons record records ih =>
    rw [List.forall_mem_cons] at hfits
    simp only [List.map_cons, acknowledged, append_written hclosed hreplayed hhandle hfits.1]
    have hrest := @ih (store.advance record) hclosed hreplayed hhandle hfits.2
    rw [hrest]
    rfl

theorem frames_nil (options : StoreOptions) : frames options [] = [] := rfl

theorem frames_pair (options : StoreOptions) (first second : StoreRecord) :
    frames options [first, second] =
      recordFrame logStart first ++ recordFrame (nextPosition logStart first) second := by
  rw [frames, LogFormat.encode, LogFormat.encode, LogFormat.encode, List.append_nil]
  rfl

theorem holds_sampleStore : sampleStore.Holds storeHeader [] [] := by
  have hholds := holds_ofScan usable_sampleOptions headerOk_storeHeader (List.forall_mem_nil _) none
  rw [show frames sampleOptions [] = [] from rfl, List.append_nil] at hholds
  exact hholds.flags _ _

theorem fitsFrame_sampleRecord : FitsFrame sampleOptions.maxRecordBytes sampleRecord :=
  ⟨by decide, by decide, by decide⟩

/-- Two records without a payload. -/
def sampleAttempts : List Attempt := [sampleRecord, sampleRecord].map fun r => ⟨r, .written⟩

theorem acknowledged_sampleAttempts :
    sampleStore.acknowledged sampleAttempts = [sampleRecord, sampleRecord] :=
  acknowledged_written _ rfl rfl rfl (by
    intro r hr
    rw [show r = sampleRecord by simpa using hr]
    exact fitsFrame_sampleRecord)

theorem file_sampleAttempts :
    (sampleStore.attemptAll sampleAttempts).file =
      storeHeader ++ frames sampleOptions [sampleRecord, sampleRecord] := by
  have h := holds_sampleStore.attemptAll sampleAttempts acknowledged_sampleAttempts (by decide)
  have hfile := h.1.file
  rw [h.2, List.append_nil] at hfile
  exact hfile

theorem open_strict_damaged_checksum :
    (sampleStore.attemptAll sampleAttempts).file[recordStart sampleOptions [] + 20]? ≠ some 255 ∧
    (∃ error, (Store.open { sampleOptions with recoveryPolicy := .strict }
      (some ((sampleStore.attemptAll sampleAttempts).file.set
        (recordStart sampleOptions [] + 20) 255))).outcome = .error error) ∧
    (Store.open { sampleOptions with recoveryPolicy := .strict }
      (some ((sampleStore.attemptAll sampleAttempts).file.set
        (recordStart sampleOptions [] + 20) 255))).disk =
      some ((sampleStore.attemptAll sampleAttempts).file.set (recordStart sampleOptions [] + 20)
        255) := by
  have hb : (sampleStore.attemptAll sampleAttempts).file[recordStart sampleOptions [] + 20]? ≠
      some 255 := by
    rw [file_sampleAttempts]
    decide +kernel
  have h := open_strict_damaged_iff rfl open_sampleOptions replay_sampleOptions sampleAttempts
    acknowledged_sampleAttempts (by decide) [] [sampleRecord] sampleRecord rfl 20 (by decide) 255 hb
  exact ⟨hb, h.mpr (by decide)⟩

/-- The last byte of the first record's length becomes 255.  The record then seems to
reach past the end of the file, and opening cuts both records off. -/
theorem open_strict_damaged_length :
    (Store.open sampleOptions none).outcome =
      .ok (ofScan sampleOptions storeHeader ⟨[], logStart, 0, none⟩) ∧
    (ofScan sampleOptions storeHeader ⟨[], logStart, 0, none⟩).visitRecords collect [] =
      .ok (sampleStore, []) ∧
    sampleStore.acknowledged sampleAttempts = [sampleRecord, sampleRecord] ∧
    (sampleStore.attemptAll sampleAttempts).file[recordStart sampleOptions [] + 3]? ≠ some 255 ∧
    (∃ store, (Store.open { sampleOptions with recoveryPolicy := .strict }
      (some ((sampleStore.attemptAll sampleAttempts).file.set
        (recordStart sampleOptions [] + 3) 255))).outcome = .ok store) ∧
    (Store.open { sampleOptions with recoveryPolicy := .strict }
      (some ((sampleStore.attemptAll sampleAttempts).file.set
        (recordStart sampleOptions [] + 3) 255))).disk = some storeHeader := by
  refine ⟨open_sampleOptions, replay_sampleOptions, acknowledged_sampleAttempts, ?_⟩
  rw [file_sampleAttempts]
  refine ⟨by decide +kernel, ?_⟩
  obtain ⟨tail, htail⟩ : ∃ tail, tail = recordFrame (nextPosition logStart sampleRecord)
    sampleRecord := ⟨_, rfl⟩
  have hframe : (recordFrame logStart sampleRecord).length = 60 := length_recordFrame _ _
  have hset : (storeHeader ++ frames sampleOptions [sampleRecord, sampleRecord]).set
      (recordStart sampleOptions [] + 3) 255 = storeHeader ++ frames sampleOptions [] ++
        ((recordFrame logStart sampleRecord).set 3 255 ++ tail) := by
    rw [frames_pair, ← htail, List.set_append_right _ _ (by decide)]
    have hthree : recordStart sampleOptions [] + 3 - storeHeader.length = 3 := by decide
    rw [hthree, List.set_append_left _ _ (by omega), frames_nil, List.append_nil]
  have hthree : 3 < (recordFrame logStart sampleRecord).length := by omega
  have hbyte : (255 : UInt8) ≠ (recordFrame logStart sampleRecord)[3] := by
    have hzero : (recordFrame logStart sampleRecord)[3]? = some 0 := by decide +kernel
    rw [List.getElem?_eq_getElem hthree, Option.some.injEq] at hzero
    rw [hzero]
    decide
  rcases open_damaged usable_sampleOptions rfl headerOk_storeHeader (List.forall_mem_nil _)
    fitsFrame_sampleRecord hthree hbyte hset with ⟨-, report, store, heq⟩ | ⟨hnot, -⟩
  · rw [show ({ sampleOptions with recoveryPolicy := .strict } : StoreOptions) = sampleOptions from rfl,
      heq]
    exact ⟨⟨store, rfl⟩, rfl⟩
  · exact absurd (by decide +kernel) hnot

/-! ### Failed appends -/

/-- What an attempt leaves of earlier failures behind the bytes it writes continues its
own frame.  An acknowledged append leaves nothing of them. -/
def Covers (store : Store) (a : Attempt) : Prop :=
  store.writes a.record a.io = 0 ∨
    store.file.drop (store.writeOffset + store.writes a.record a.io) <+:
      (recordFrame store.position a.record).drop (store.writes a.record a.io)

instance (store : Store) (a : Attempt) : Decidable (store.Covers a) :=
  inferInstanceAs (Decidable (_ ∨ _))

def AllCover (store : Store) : List Attempt → Prop
  | [] => True
  | a :: attempts => store.Covers a ∧ (store.append a.record a.io).1.AllCover attempts

theorem attemptAll_append (store : Store) (attempts attempts' : List Attempt) :
    store.attemptAll (attempts ++ attempts') = (store.attemptAll attempts).attemptAll attempts' :=
  List.foldl_append

theorem acknowledged_append (attempts attempts' : List Attempt) (store : Store) :
    store.acknowledged (attempts ++ attempts') =
      store.acknowledged attempts ++ (store.attemptAll attempts).acknowledged attempts' := by
  induction attempts generalizing store with
  | nil => rfl
  | cons a attempts ih =>
    rw [List.cons_append, acknowledged, ih, acknowledged, List.append_assoc]
    rfl

theorem allCover_concat (attempts : List Attempt) (a : Attempt) (store : Store) :
    store.AllCover (attempts ++ [a]) ↔
      store.AllCover attempts ∧ (store.attemptAll attempts).Covers a := by
  induction attempts generalizing store with
  | nil => simp [AllCover, attemptAll]
  | cons b attempts ih =>
    rw [List.cons_append, AllCover, ih, AllCover, and_assoc]
    rfl

/-- The bytes behind the log are the front of the frame of one of the given attempts. -/
def Residue (options : StoreOptions) (records : List StoreRecord) (attempts : List Attempt)
    (stale : List UInt8) : Prop :=
  stale = [] ∨ ∃ a ∈ attempts, FitsFrame options.maxRecordBytes a.record ∧
    stale <+: recordFrame (positionAfter options records) a.record

/-- One attempt: an acknowledged one extends the log and clears what lies behind it; any
other leaves the log alone, and behind it what was there or the front of its own frame. -/
theorem Holds.attempt (h : store.Holds header records stale)
    (hstale : Residue store.options records late stale) {a : Attempt}
    (hsize : a.record.payload.length + 56 < 2 ^ 32) (hcover : store.Covers a) :
    ((store.append a.record a.io).2.isOk = true ∧
      (store.append a.record a.io).1.Holds header (records ++ [a.record]) []) ∨
    ((store.append a.record a.io).2.isOk = false ∧
      ∃ stale', (store.append a.record a.io).1.Holds header records stale' ∧
        Residue store.options records (late ++ [a]) stale') := by
  have hmore : Residue store.options records (late ++ [a]) stale := by
    rcases hstale with hnil | ⟨b, hb, hfit⟩
    · exact .inl hnil
    · exact .inr ⟨b, List.mem_append_left _ hb, hfit⟩
  have hbehind : store.file.drop (store.writeOffset + store.writes a.record a.io) =
      stale.drop (store.writes a.record a.io) := by
    have hoffset : (header ++ frames store.options records).length = store.writeOffset := by
      rw [List.length_append, h.headerOk.length, h.writeOffset]
    rw [h.file, ← hoffset, ← List.drop_drop, List.drop_left]
  rcases append_cases store hsize a.io with ⟨hfit, hwrites, happ⟩ | ⟨error, happ⟩ |
    ⟨hfit, -, error, happ⟩
  · refine .inl ⟨by rw [happ]; rfl, ?_⟩
    have hclear : stale.drop (recordFrame store.position a.record).length = [] := by
      rcases hcover with hzero | hcontinues
      · rw [hwrites, length_recordFrame] at hzero
        omega
      · rw [hbehind, hwrites, List.drop_length] at hcontinues
        exact List.prefix_nil.mp hcontinues
    have hnext := h.advance hfit
    rw [hclear] at hnext
    rw [happ]
    exact hnext
  · rw [happ]
    exact .inr ⟨rfl, stale, h, hmore⟩
  · rw [happ]
    refine .inr ⟨rfl, _, h.leave _, ?_⟩
    rcases hcover with hzero | hcontinues
    · rw [hzero, List.take_zero, List.nil_append, List.length_nil, List.drop_zero]
      exact hmore
    · refine .inr ⟨a, by simp, hfit, ?_⟩
      rw [hbehind] at hcontinues
      have hcount := List.length_take_of_le (store.writes_le a.record a.io)
      rw [← h.position, hcount]
      have hjoined := (List.prefix_append_right_inj ((recordFrame store.position a.record).take
        (store.writes a.record a.io))).mpr hcontinues
      rwa [List.take_append_drop] at hjoined

/-- A run of attempts: the log holds what was acknowledged, and behind it at most the
front of the frame of an attempt that no acknowledged one followed. -/
theorem Holds.attempts {before : List StoreRecord} (h : store.Holds header before [])
    (attempts : List Attempt) (hsize : ∀ a ∈ attempts, a.record.payload.length + 56 < 2 ^ 32)
    (hcover : store.AllCover attempts) :
    ∃ early late stale, attempts = early ++ late ∧ (store.attemptAll early).acknowledged late = [] ∧
      (store.attemptAll attempts).options = store.options ∧
      (store.attemptAll attempts).Holds header (before ++ store.acknowledged attempts) stale ∧
      Residue store.options (before ++ store.acknowledged attempts) late stale := by
  induction attempts using List.reverseRecOn with
  | nil =>
    refine ⟨[], [], [], rfl, rfl, rfl, ?_, .inl rfl⟩
    rw [acknowledged, List.append_nil]
    exact h
  | append_singleton attempts a ih =>
    obtain ⟨hcovers, hlast⟩ := (allCover_concat attempts a store).mp hcover
    obtain ⟨early, late, stale, heq, hnone, hoptions, hholds, hres⟩ :=
      ih (fun b hb => hsize b (List.mem_append_left _ hb)) hcovers
    have hoptions' : ((store.attemptAll attempts).append a.record a.io).1.options =
        store.options := by
      rw [options_append, hoptions]
    have hfinal : store.attemptAll (attempts ++ [a]) =
        ((store.attemptAll attempts).append a.record a.io).1 := attemptAll_append _ _ _
    have hlate : (store.attemptAll early).attemptAll late = store.attemptAll attempts := by
      rw [heq, attemptAll_append]
    rw [← hoptions] at hres
    rw [acknowledged_append, hfinal, ← List.append_assoc]
    rcases hholds.attempt hres (hsize a (by simp)) hlast with ⟨hok, hnext⟩ |
      ⟨hfail, stale', hnext, hres'⟩
    · refine ⟨attempts ++ [a], [], [], (List.append_nil _).symm, rfl, hoptions', ?_, .inl rfl⟩
      simpa only [acknowledged, hok, if_true, List.append_nil] using hnext
    · refine ⟨early, late ++ [a], stale', by rw [heq, List.append_assoc], ?_, hoptions', ?_, ?_⟩
      · rw [acknowledged_append, hnone, hlate]
        simp [acknowledged, hfail]
      · simpa [acknowledged, hfail] using hnext
      · rw [hoptions] at hres'
        simpa [acknowledged, hfail] using hres'

/-- A strict open of a log with the front of a frame behind it drops the front, or takes
the record in when its frame is complete. -/
theorem open_residue (ho : Usable options) (hh : HeaderOk header) (hg : ∀ r ∈ records, FitsFrame options.maxRecordBytes r)
    (hres : Residue options records late stale) :
    ∃ store last, (Store.open options (some (header ++ frames options records ++ stale))).outcome =
        .ok store ∧ store.Holds header (records ++ last) [] ∧ store.closed = false ∧
      store.replayed = false ∧ (last = [] ∨ ∃ a ∈ late, last = [a.record]) := by
  by_cases hnil : stale = []
  · obtain ⟨report, -, hopen⟩ := open_log ho hh hg
    rw [hnil, List.append_nil, hopen]
    refine ⟨_, [], rfl, ?_, rfl, rfl, .inl rfl⟩
    rw [List.append_nil]
    exact holds_ofScan ho hh hg none
  obtain ⟨a, ha, hfit, hfront⟩ := hres.resolve_left hnil
  by_cases hall : stale.length = (recordFrame (positionAfter options records) a.record).length
  · have hg' : ∀ r ∈ records ++ [a.record], FitsFrame options.maxRecordBytes r :=
      List.forall_mem_append.mpr ⟨hg, List.forall_mem_singleton.mpr hfit⟩
    obtain ⟨report, -, hopen⟩ := open_log ho hh hg'
    rw [List.append_assoc, hfront.eq_of_length hall, ← frames_concat, hopen]
    exact ⟨_, [a.record], rfl, holds_ofScan ho hh hg' none, rfl, rfl, .inr ⟨a, ha, rfl⟩⟩
  · have hlt := lt_of_le_of_ne hfront.length_le hall
    obtain ⟨detail, hstop⟩ := scanRecord_front (positionAfter options records) hfit.length hlt
    rw [← List.prefix_iff_eq_take.mp hfront] at hstop
    rcases open_of_stop ho hh hg hnil hstop with ⟨-, report, -, heq⟩ | ⟨hnot, -⟩
    · rw [heq]
      refine ⟨_, [], rfl, ?_, rfl, rfl, .inl rfl⟩
      rw [List.append_nil]
      exact holds_ofScan ho hh hg _
    · exact absurd (by simp [Recoverable, tornRecord]) hnot

/-- **Failed appends.**  A log is opened, replayed and appended to, and appends may fail
after any part of their frame.  If every attempt covers what earlier failures left behind
the log, a strict open of the file succeeds; it finds the records of before, then the
acknowledged ones, and after them at most the record of one failed attempt, which no
acknowledged one followed. -/
theorem open_strict_after_failures {options : StoreOptions} {disk : Option (List UInt8)}
    {opened store : Store} {before : List StoreRecord}
    (hopen : (Store.open options disk).outcome = .ok opened)
    (hreplay : opened.visitRecords collect [] = .ok (store, before)) (attempts : List Attempt)
    (hsize : ∀ a ∈ attempts, a.record.payload.length + 56 < 2 ^ 32)
    (hcover : store.AllCover attempts) :
    ∃ reopened final early late last,
      (Store.open { options with recoveryPolicy := .strict }
        (some (store.attemptAll attempts).file)).outcome = .ok reopened ∧
      reopened.visitRecords collect [] =
        .ok (final, before ++ store.acknowledged attempts ++ last) ∧
      attempts = early ++ late ∧ (store.attemptAll early).acknowledged late = [] ∧
      (last = [] ∨ ∃ a ∈ late, last = [a.record]) := by
  obtain ⟨header, records₀, hholds₀, hoptions, hseen, -, -, -⟩ := holds_of_open hopen hreplay
  rw [visitAll_collect, List.nil_append] at hseen
  subst hseen
  obtain ⟨early, late, stale, hsplit, hnone, hoptions', hholds, hres⟩ :=
    hholds₀.attempts attempts hsize hcover
  have hfile := hholds.file
  rw [hoptions'] at hfile
  rw [hoptions] at hfile hres
  have husable := hholds₀.usable
  rw [hoptions] at husable
  have hfits := hholds.fits
  rw [hoptions', hoptions] at hfits
  obtain ⟨reopened, last, hok, hagain, hclosed, hreplayed, hlast⟩ :=
    open_residue (husable.withPolicy .strict) hholds.headerOk hfits hres
  rw [hfile]
  exact ⟨reopened, _, early, late, last, hok, hagain.collects hclosed hreplayed, hsplit, hnone, hlast⟩

/-- The same record again after its first write was cut short. -/
def sampleRetry : List Attempt :=
  [⟨sampleRecord, .torn 10 "disk full"⟩, ⟨sampleRecord, .written⟩]

theorem open_strict_after_retry :
    sampleStore.AllCover sampleRetry ∧ sampleStore.acknowledged sampleRetry = [sampleRecord] ∧
    ∃ reopened final last, (Store.open { sampleOptions with recoveryPolicy := .strict }
      (some (sampleStore.attemptAll sampleRetry).file)).outcome = .ok reopened ∧
      reopened.visitRecords collect [] = .ok (final, [sampleRecord] ++ last) := by
  have hcover : sampleStore.AllCover sampleRetry := by
    refine ⟨?_, ?_, trivial⟩
    · decide +kernel
    · decide +kernel
  have hacked : sampleStore.acknowledged sampleRetry = [sampleRecord] := by decide +kernel
  obtain ⟨reopened, final, -, -, last, hok, hvisit, -⟩ :=
    open_strict_after_failures open_sampleOptions replay_sampleOptions sampleRetry (by decide) hcover
  rw [hacked] at hvisit
  exact ⟨hcover, hacked, reopened, final, last, hok, hvisit⟩

def longRecord : StoreRecord := ⟨.evidence, List.replicate 100 0⟩

/-- A long record that was written and not flushed, then a short one. -/
def shortAfterLong : List Attempt :=
  [⟨longRecord, .notSynced "flush failed"⟩, ⟨sampleRecord, .written⟩]

/-- The end of the long frame lies behind the short one.  It starts with payload bytes,
which read as the frame length zero, and the log is refused. -/
theorem open_strict_after_short_record :
    (Store.open sampleOptions none).outcome =
      .ok (ofScan sampleOptions storeHeader ⟨[], logStart, 0, none⟩) ∧
    (ofScan sampleOptions storeHeader ⟨[], logStart, 0, none⟩).visitRecords collect [] =
      .ok (sampleStore, []) ∧
    sampleStore.acknowledged shortAfterLong = [sampleRecord] ∧
    ∃ error, (Store.open { sampleOptions with recoveryPolicy := .strict }
      (some (sampleStore.attemptAll shortAfterLong).file)).outcome = .error error := by
  refine ⟨open_sampleOptions, replay_sampleOptions, by decide +kernel, ?_⟩
  have hholds := (holds_sampleStore.leave (recordFrame logStart longRecord)).advance
    fitsFrame_sampleRecord
  rw [List.drop_nil, List.append_nil, length_recordFrame] at hholds
  have hfile : (sampleStore.attemptAll shortAfterLong).file =
      storeHeader ++ frames sampleOptions [sampleRecord] ++
        (recordFrame logStart longRecord).drop 60 := hholds.file
  generalize hrest : (recordFrame logStart longRecord).drop 60 = rest at hfile
  have hlength : rest.length = 100 := by
    rw [← hrest, List.length_drop, length_recordFrame]
    rfl
  have hzero : load 4 rest 0 = 0 := by
    rw [← hrest]
    decide +kernel
  have hstop : ∃ stop, scanRecord sampleOptions.maxRecordBytes
      (positionAfter sampleOptions [sampleRecord]) rest = .error stop := by
    cases hscan : scanRecord sampleOptions.maxRecordBytes
      (positionAfter sampleOptions [sampleRecord]) rest with
    | error stop => exact ⟨stop, rfl⟩
    | ok found =>
      obtain ⟨hfit, -, heq⟩ := scanRecord_sound hscan
      rw [heq, load_frame_length _ _ _ hfit.length] at hzero
      omega
  obtain ⟨stop, hstop⟩ := hstop
  have htail : stop.tailIncomplete = false := by
    have hiff := scanRecord_tailIncomplete (by omega) hstop
    rw [hlength, hzero] at hiff
    simpa using hiff
  have hnonempty : rest ≠ [] := by
    rintro rfl
    simp at hlength
  rw [hfile]
  rcases open_of_stop usable_sampleOptions headerOk_storeHeader
    (List.forall_mem_singleton.mpr fitsFrame_sampleRecord) hnonempty hstop with
    ⟨hgoes, -⟩ | ⟨-, report, error, heq⟩
  · exact absurd hgoes (by simp [Recoverable, htail, sampleOptions])
  · exact ⟨error, congrArg Opening.outcome heq⟩

end Store

end CableRegistry
