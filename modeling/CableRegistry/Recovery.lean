import CableRegistry.Store

/-!
# Reading the log back

The frames of the log are a lawful format (`lawful_storeFormat`): the scan accepts the
frame of every record that fits its length field, in front of whatever follows, and
accepts nothing else.  From that follow what opening finds in a log that was written by
appending, what it makes of a frame that was cut short, and what the replay visits.
-/

namespace CableRegistry

/-! ### Slices -/

/-- The bytes of a field. -/
def slice (bytes : List UInt8) (offset width : Nat) : List UInt8 := (bytes.drop offset).take width

theorem load_eq (bytes : List UInt8) (offset width : Nat) :
    load width bytes offset = leValue (slice bytes offset width) := rfl

variable {records : List StoreRecord} {bytes file header rest : List UInt8} {n offset width : Nat}
  {disk : Option (List UInt8)} {report : RecoveryReport} {store : Store} {options : StoreOptions}
  {record : StoreRecord} {maxRecordBytes : UInt64}

theorem length_slice (h : offset + width ≤ bytes.length) :
    (slice bytes offset width).length = width := by
  simp only [slice, List.length_take, List.length_drop]
  omega

theorem leBytes_load (h : offset + width ≤ bytes.length) :
    leBytes width (load width bytes offset) = slice bytes offset width := by
  have hl := leBytes_leValue (slice bytes offset width)
  rwa [length_slice h] at hl

theorem load_lt (h : offset + width ≤ bytes.length) :
    load width bytes offset < 256 ^ width := by
  have hlt := leValue_lt (slice bytes offset width)
  rwa [length_slice h] at hlt

theorem slice_append_slice (bytes : List UInt8) (offset width width' : Nat) :
    slice bytes offset width ++ slice bytes (offset + width) width' =
      slice bytes offset (width + width') := by
  simp only [slice, List.take_add, List.drop_drop]

theorem slice_zero_append (bytes : List UInt8) (width width' : Nat) :
    slice bytes 0 width ++ slice bytes width width' = slice bytes 0 (width + width') := by
  have h := slice_append_slice bytes 0 width width'
  rwa [Nat.zero_add] at h

theorem slice_take (h : offset + width ≤ n) :
    slice (bytes.take n) offset width = slice bytes offset width := by
  simp only [slice, List.drop_take, List.take_take]
  rw [Nat.min_eq_left (by omega)]

theorem slice_zero (bytes : List UInt8) (width : Nat) : slice bytes 0 width = bytes.take width := by
  simp [slice]

theorem slice_skip {before : List UInt8} (h : before.length ≤ offset) :
    slice (before ++ rest) offset width = slice rest (offset - before.length) width := by
  simp only [slice, List.drop_append, List.drop_eq_nil_of_le h, List.nil_append]

theorem slice_front {field : List UInt8} (h : field.length = width) :
    slice (field ++ rest) 0 width = field := by
  subst h
  simp [slice]

/-! ### Frames -/

theorem length_headerFromKind (sequence : UInt64) (record : StoreRecord) :
    (headerFromKind sequence record).length = 20 := by
  simp [headerFromKind]

theorem length_frameBody (position : LogPosition) (record : StoreRecord) :
    (frameBody position record).length = record.payload.length + 56 := by
  simp only [frameBody, List.length_append, length_leBytes, length_headerFromKind,
    Vector.length_toList]
  omega

theorem length_recordFrame (position : LogPosition) (record : StoreRecord) :
    (recordFrame position record).length = record.payload.length + 60 := by
  simp only [recordFrame, List.length_append, length_leBytes, length_frameBody]

/-- The record is one the store takes and its length fits the length field. -/
structure FitsFrame (maxRecordBytes : UInt64) (record : StoreRecord) : Prop where
  kind : validRecordKind record.kind = true
  limit : record.payload.length ≤ maxRecordBytes.toNat
  length : record.payload.length + 56 < 2 ^ 32

section Fields

variable (position : LogPosition) (record : StoreRecord) (tail : List UInt8)

/-- A frame and what follows it, field by field. -/
theorem recordFrame_append :
    recordFrame position record ++ tail =
      leBytes 4 (record.payload.length + 56) ++ (leBytes 2 record.kind.raw.toNat ++ (leBytes 2 0 ++
        (leBytes 8 position.sequence.toNat ++ (leBytes 4 record.payload.length ++
          (leBytes 4 (crc32c record.payload).toNat ++ (record.payload ++
            ((recordChain position record).toList ++
              (leBytes 4 (crc32c (frameBody position record)).toNat ++ tail)))))))) := by
  simp only [recordFrame, frameBody, headerFromKind, kMinRecordBytes, kRecordHeaderBytes,
    kRecordTrailerBytes, kChainBytes, List.append_assoc]
  rfl

theorem load_frame_length (h : record.payload.length + 56 < 2 ^ 32) :
    load 4 (recordFrame position record ++ tail) 0 = record.payload.length + 56 := by
  rw [recordFrame_append, load_eq, slice_front (length_leBytes _ _), leValue_leBytes (by omega)]

theorem load_frame_kind :
    load 2 (recordFrame position record ++ tail) 4 = record.kind.raw.toNat := by
  have hlt := record.kind.raw.toNat_lt
  rw [recordFrame_append, load_eq]
  simp (disch := simp) only [slice_skip, length_leBytes, Nat.sub_self]
  rw [slice_front (length_leBytes _ _), leValue_leBytes (by omega)]

theorem load_frame_flags : load 2 (recordFrame position record ++ tail) 6 = 0 := by
  rw [recordFrame_append, load_eq]
  simp (disch := simp) only [slice_skip, length_leBytes, Nat.reduceSub]
  rw [slice_front (length_leBytes _ _), leValue_leBytes (by omega)]

theorem load_frame_sequence :
    load 8 (recordFrame position record ++ tail) 8 = position.sequence.toNat := by
  have hlt := position.sequence.toNat_lt
  rw [recordFrame_append, load_eq]
  simp (disch := simp) only [slice_skip, length_leBytes, Nat.reduceSub]
  rw [slice_front (length_leBytes _ _), leValue_leBytes (by omega)]

theorem load_frame_payloadBytes (h : record.payload.length < 2 ^ 32) :
    load 4 (recordFrame position record ++ tail) 16 = record.payload.length := by
  rw [recordFrame_append, load_eq]
  simp (disch := simp) only [slice_skip, length_leBytes, Nat.reduceSub]
  rw [slice_front (length_leBytes _ _), leValue_leBytes (by omega)]

theorem load_frame_payloadCrc :
    load 4 (recordFrame position record ++ tail) 20 = (crc32c record.payload).toNat := by
  have hlt := (crc32c record.payload).toNat_lt
  rw [recordFrame_append, load_eq]
  simp (disch := simp) only [slice_skip, length_leBytes, Nat.reduceSub]
  rw [slice_front (length_leBytes _ _), leValue_leBytes (by omega)]

theorem slice_frame_payload :
    slice (recordFrame position record) 24 record.payload.length = record.payload := by
  rw [← List.append_nil (recordFrame position record), recordFrame_append]
  simp (disch := simp) only [slice_skip, length_leBytes, Nat.reduceSub]
  exact slice_front rfl

theorem slice_frame_header :
    slice (recordFrame position record) 4 20 = headerFromKind position.sequence record := by
  rw [recordFrame, frameBody, List.append_assoc, List.append_assoc, List.append_assoc,
    slice_skip (by simp), length_leBytes]
  exact slice_front (length_headerFromKind _ _)

theorem slice_frame_chain :
    slice (recordFrame position record) (24 + record.payload.length) 32 =
      (recordChain position record).toList := by
  have hbefore : (leBytes 4 (record.payload.length + kMinRecordBytes - 4) ++
      headerFromKind position.sequence record ++ record.payload).length =
      24 + record.payload.length := by
    simp only [List.length_append, length_leBytes, length_headerFromKind]
  rw [recordFrame, frameBody, List.append_assoc, slice_skip (by omega), hbefore, Nat.sub_self]
  exact slice_front (by simp)

theorem take_frame_body :
    (recordFrame position record).take (24 + record.payload.length + 32) =
      frameBody position record := by
  have hb := length_frameBody position record
  rw [recordFrame, List.take_append_of_le_length (by omega), List.take_of_length_le (by omega)]

theorem load_frame_crc :
    load 4 (recordFrame position record) (24 + record.payload.length + 32) =
      (crc32c (frameBody position record)).toNat := by
  have hb := length_frameBody position record
  have hoffset : 24 + record.payload.length + 32 - (frameBody position record).length = 0 := by
    omega
  rw [load_eq, recordFrame, slice_skip (by omega), hoffset, ← List.append_nil (leBytes 4 _),
    slice_front (length_leBytes _ _), leValue_leBytes (crc32c (frameBody position record)).toNat_lt]

end Fields

/-! ### The scan -/

/-- The frame of a record is recognised in front of whatever follows. -/
theorem scanRecord_frame (position : LogPosition) (tail : List UInt8)
    (h : FitsFrame maxRecordBytes record) :
    scanRecord maxRecordBytes position (recordFrame position record ++ tail) =
      .ok (record, (recordFrame position record).length) := by
  have hlen := length_recordFrame position record
  have htotal : (recordFrame position record ++ tail).length =
      record.payload.length + 60 + tail.length := by
    rw [List.length_append, hlen]
  have hlength := h.length
  have htake : (recordFrame position record ++ tail).take (record.payload.length + 56 + 4) =
      recordFrame position record := by
    rw [List.take_append_of_le_length (by omega), List.take_of_length_le (by omega)]
  have hpayload := slice_frame_payload position record
  have hheader := slice_frame_header position record
  have hchain := slice_frame_chain position record
  simp only [slice] at hpayload hheader hchain
  have hkind : (⟨UInt16.ofNat record.kind.raw.toNat⟩ : RecordKind) = record.kind := by
    rw [UInt16.ofNat_toNat]
  simp only [scanRecord, refuseIf_bind_eq_ok, load_frame_length _ _ _ hlength, load_frame_kind,
    load_frame_flags, load_frame_sequence, load_frame_payloadCrc,
    load_frame_payloadBytes position record tail (by omega), kRecordHeaderBytes, kMinRecordBytes,
    kRecordTrailerBytes, kChainBytes, htake, htotal, Nat.reduceAdd, Nat.reduceSub,
    load_frame_crc, take_frame_body, hpayload, hheader, hchain, hkind]
  refine ⟨by simp; omega, by simp, by simp, by simp, by simp [h.kind], by simp,
    by simpa using h.limit, by simp, by simp, by simp, by simp [recordChain], ?_⟩
  rw [hlen]
  rfl

/-- The header of a record whose fields are those found in the bytes. -/
theorem headerFromKind_of_loads {sequence : UInt64} (hlen : 24 ≤ rest.length)
    (hkind : record.kind.raw.toNat = load 2 rest 4) (hflags : load 2 rest 6 = 0)
    (hsequence : load 8 rest 8 = sequence.toNat) (hpayload : record.payload.length = load 4 rest 16)
    (hcrc : (crc32c record.payload).toNat = load 4 rest 20) :
    headerFromKind sequence record = slice rest 4 20 := by
  have h0 : leBytes 2 0 = slice rest 6 2 := by
    rw [← hflags]
    exact leBytes_load (by omega)
  rw [headerFromKind, hkind, ← hsequence, hpayload, hcrc, h0, leBytes_load (by omega),
    leBytes_load (by omega), leBytes_load (by omega), leBytes_load (by omega), slice_append_slice,
    slice_append_slice, slice_append_slice, slice_append_slice]

/-- Only the frame of a record is recognised. -/
theorem scanRecord_sound {position : LogPosition}
    (h : scanRecord maxRecordBytes position rest = .ok (record, n)) :
    FitsFrame maxRecordBytes record ∧ n = (recordFrame position record).length ∧
      rest = recordFrame position record ++ rest.drop n := by
  simp only [scanRecord, refuseIf_bind_eq_ok, kRecordHeaderBytes, kMinRecordBytes,
    kRecordTrailerBytes, kChainBytes, Nat.reduceAdd, Nat.reduceSub, decide_eq_false_iff_not,
    bne_eq_false_iff_eq, Bool.not_eq_false', gt_iff_lt, not_lt] at h
  obtain ⟨hshort, htotal, hmin, hflags, hkind, hconsistent, hlimit, hsequence, hcrc, hpayloadCrc,
    hchain, heq⟩ := h
  simp only [pure, Except.pure, Except.ok.injEq, Prod.mk.injEq] at heq
  obtain ⟨hrecord, rfl⟩ := heq
  have hshort := Nat.le_of_not_lt (of_decide_eq_false hshort)
  have hfb : load 4 rest 0 < 256 ^ 4 := load_lt (by omega)
  have hkb : load 2 rest 4 < 256 ^ 2 := load_lt (by omega)
  generalize hn : load 4 rest 0 = fb at *
  generalize hp : load 4 rest 16 = pb at *
  have hsize : fb + 4 = pb + 60 := by omega
  have hin : ∀ offset width, offset + width ≤ fb + 4 →
      slice (rest.take (fb + 4)) offset width = slice rest offset width := fun _ _ => slice_take
  have hpayload : record.payload = slice rest 24 pb := by
    rw [← hrecord]
    exact hin _ _ (by omega)
  have hplen : record.payload.length = pb := by
    rw [hpayload, length_slice (by omega)]
  have hheader : headerFromKind position.sequence record = slice rest 4 20 := by
    apply headerFromKind_of_loads hshort _ hflags hsequence (hplen.trans hp.symm)
    · rw [← hrecord] at hpayload ⊢
      exact hpayloadCrc
    · rw [← hrecord]
      exact UInt16.toNat_ofNat_of_lt hkb
  have hchain' : (recordChain position record).toList = slice rest (24 + pb) 32 := by
    have h₁ := hin (24 + pb) 32 (by omega)
    have h₂ := hin 24 pb (by omega)
    have h₃ := hin 4 20 (by omega)
    simp only [slice] at h₁ h₂ h₃
    rw [h₁, h₂, h₃] at hchain
    rw [recordChain, hheader, hpayload]
    exact hchain.symm
  have hlength : leBytes 4 (record.payload.length + kMinRecordBytes - 4) = slice rest 0 4 := by
    have hcount : record.payload.length + kMinRecordBytes - 4 = fb := by
      simp only [kMinRecordBytes, kRecordHeaderBytes, kRecordTrailerBytes, kChainBytes, hplen]
      omega
    rw [hcount, ← hn]
    exact leBytes_load (by omega)
  have hbody : frameBody position record = slice rest 0 (24 + pb + 32) := by
    rw [frameBody, hlength, hheader, hpayload, hchain', slice_zero_append, slice_zero_append,
      slice_zero_append]
  have hcrc' : leBytes 4 (crc32c (frameBody position record)).toNat =
      slice rest (24 + pb + 32) 4 := by
    have h₁ := hin (24 + pb + 32) 4 (by omega)
    rw [load_eq, h₁, ← load_eq, List.take_take, Nat.min_eq_left (by omega)] at hcrc
    rw [hbody, slice_zero, ← hcrc, leBytes_load (by omega)]
  have hframe : recordFrame position record = rest.take (fb + 4) := by
    have hcount : 24 + pb + 32 + 4 = fb + 4 := by omega
    rw [recordFrame, hcrc', hbody, slice_zero_append, slice_zero, hcount]
  refine ⟨⟨?_, ?_, ?_⟩, ?_, ?_⟩
  · rw [← hrecord]
    exact hkind
  · rwa [hplen]
  · rw [hplen]
    omega
  · rw [length_recordFrame, hplen, hsize]
  · rw [hframe, List.take_append_drop]

/-- **The log is a lawful format.** -/
theorem lawful_storeFormat (maxRecordBytes : UInt64) :
    (storeFormat maxRecordBytes).Lawful (FitsFrame maxRecordBytes) where
  frame_ne_nil := by
    intro position record h
    have hlen := length_recordFrame position record
    rw [show recordFrame position record = [] from h, List.length_nil] at hlen
    omega
  head_frame := fun position _ tail h => scanRecord_frame position tail h
  head_sound := fun _ _ _ _ h => scanRecord_sound h

/-- A frame that was cut short reads as a torn tail. -/
theorem scanRecord_front (position : LogPosition) (h : record.payload.length + 56 < 2 ^ 32)
    (hn : n < (recordFrame position record).length) :
    ∃ detail, scanRecord maxRecordBytes position ((recordFrame position record).take n) =
      .error (tornRecord detail) := by
  have hlen := length_recordFrame position record
  have htake : ((recordFrame position record).take n).length = n := by
    rw [List.length_take]
    omega
  by_cases hshort : n < 24
  · refine ⟨"trailing bytes shorter than a record header", ?_⟩
    simp only [scanRecord, refuseIf_bind_eq_error]
    exact .inl ⟨by rw [htake]; exact decide_eq_true hshort, trivial⟩
  · refine ⟨"record extends past the end of the store", ?_⟩
    have hload : load 4 ((recordFrame position record).take n) 0 = record.payload.length + 56 := by
      have hfull := load_frame_length position record [] h
      rw [List.append_nil] at hfull
      rw [load_eq, slice_take (by omega), ← load_eq, hfull]
    simp only [scanRecord, refuseIf_bind_eq_error, hload, htake]
    refine .inr ⟨decide_eq_false hshort, .inl ⟨decide_eq_true ?_, trivial⟩⟩
    omega

namespace Store

/-! ### Headers -/

/-- The bytes are a header that opening accepts. -/
structure HeaderOk (header : List UInt8) : Prop where
  length : header.length = kHeaderBytes
  magic : header.take 8 = kStoreMagic
  checksum : load 4 header 20 = (crc32c (header.take 20)).toNat
  format : UInt32.ofNat (load 4 header 8) = kStoreFormatVersion
  size : load 4 header 16 = kHeaderBytes

theorem HeaderOk.ne_nil (h : HeaderOk header) : header ≠ [] := by
  rintro rfl
  exact absurd h.length (by decide)

theorem checkHeader_eq_ok :
    checkHeader file report = .ok () ↔ HeaderOk (file.take kHeaderBytes) := by
  simp only [checkHeader, refuseIf_bind_eq_ok, refuseIf_eq_ok, bne_eq_false_iff_eq,
    decide_eq_false_iff_not, Nat.not_lt]
  constructor
  · rintro ⟨hlen, hmagic, hcrc, hformat, hsize⟩
    exact ⟨by rw [List.length_take]; omega, hmagic, hcrc, hformat, hsize⟩
  · rintro ⟨hlen, hmagic, hcrc, hformat, hsize⟩
    rw [List.length_take] at hlen
    exact ⟨by omega, hmagic, hcrc, hformat, hsize⟩

theorem checkHeader_eq_error {refusal : Opening} (h : checkHeader file report = .error refusal) :
    refusal.disk = some file ∧ ∃ error, refusal.outcome = .error error := by
  simp only [checkHeader, refuseIf_bind_eq_error, refuseIf_eq_error] at h
  rcases h with ⟨-, rfl⟩ | ⟨-, ⟨-, rfl⟩ | ⟨-, ⟨-, rfl⟩ | ⟨-, ⟨-, rfl⟩ | ⟨-, -, rfl⟩⟩⟩⟩ <;>
    exact ⟨rfl, _, rfl⟩

theorem headerOk_storeHeader : HeaderOk storeHeader := by
  refine ⟨by decide, by decide, by decide +kernel, by decide +kernel, by decide +kernel⟩

/-! ### Logs -/

/-- The options a store can be opened with. -/
structure Usable (options : StoreOptions) : Prop where
  path : options.path.isEmpty = false
  record : kMinRecordBytes ≤ options.maxRecordBytes.toNat
  log : 4 * kHeaderBytes ≤ options.maxLogBytes.toNat

theorem Usable.withPolicy (h : Usable options) (policy : RecoveryPolicy) :
    Usable { options with recoveryPolicy := policy } :=
  ⟨h.path, h.record, h.log⟩

/-- The frames of a list of records from the start of the log. -/
def frames (options : StoreOptions) (records : List StoreRecord) : List UInt8 :=
  (storeFormat options.maxRecordBytes).encode logStart records

/-- The position after a list of records. -/
def positionAfter (options : StoreOptions) (records : List StoreRecord) : LogPosition :=
  (storeFormat options.maxRecordBytes).after logStart records

/-- The file of the store is a header, the frames of the acknowledged records and what
failed appends left behind them. -/
structure Holds (store : Store) (header : List UInt8) (records : List StoreRecord)
    (stale : List UInt8) : Prop where
  usable : Usable store.options
  headerOk : HeaderOk header
  fits : ∀ r ∈ records, FitsFrame store.options.maxRecordBytes r
  file : store.file = header ++ frames store.options records ++ stale
  writeOffset : store.writeOffset = kHeaderBytes + (frames store.options records).length
  validEnd : store.validEnd = kHeaderBytes + (frames store.options records).length
  position : store.position = positionAfter store.options records

/-- A scan of a log finds its records first. -/
theorem scanFile_log (tail : List UInt8) (hh : header.length = kHeaderBytes)
    (hg : ∀ r ∈ records, FitsFrame options.maxRecordBytes r) :
    scanFile options (header ++ frames options records ++ tail) =
      { (storeFormat options.maxRecordBytes).scan (positionAfter options records) tail with
        records := records ++ ((storeFormat options.maxRecordBytes).scan
          (positionAfter options records) tail).records
        size := (frames options records).length + ((storeFormat options.maxRecordBytes).scan
          (positionAfter options records) tail).size } := by
  rw [scanFile, List.append_assoc, ← hh, List.drop_left]
  exact LogFormat.scan_encode_append (lawful_storeFormat _) _ _ _ hg

theorem scanFile_frames (hh : header.length = kHeaderBytes)
    (hg : ∀ r ∈ records, FitsFrame options.maxRecordBytes r) :
    scanFile options (header ++ frames options records) =
      ⟨records, positionAfter options records, (frames options records).length, none⟩ := by
  have hscan := scanFile_log [] hh hg
  simpa only [List.append_nil, LogFormat.scan_nil, Nat.add_zero] using hscan

/-- What opening an existing log does is what the recovery decides. -/
theorem open_existing (ho : Usable options) (hh : HeaderOk header) (rest : List UInt8) :
    ∃ report : RecoveryReport, report.created = false ∧
      Store.open options (some (header ++ rest)) =
        recover options (header ++ rest) report (scanFile options (header ++ rest)) := by
  have hlen := hh.length
  have hcheck : ∀ report, checkHeader (header ++ rest) report = .ok () := by
    intro report
    rw [checkHeader_eq_ok, ← hlen, List.take_left]
    exact hh
  refine ⟨{ formatVersion := kStoreFormatVersion, opened := true, chainIntact := true }, rfl, ?_⟩
  have hpath := ho.path
  have hrecord := Nat.not_lt.mpr ho.record
  have hlog := Nat.not_lt.mpr ho.log
  simp only [Store.open, hpath, hrecord, hlog, Option.getD_some, Bool.false_eq_true, if_false]
  split
  · rename_i hnil
    rw [← List.length_eq_zero_iff, List.length_append] at hnil
    simp only [kHeaderBytes] at hlen
    omega
  · rename_i byte bytes heq
    simp only [← heq, hcheck]

/-- **A clean log opens** with all its records. -/
theorem open_log (ho : Usable options) (hh : HeaderOk header)
    (hg : ∀ r ∈ records, FitsFrame options.maxRecordBytes r) :
    ∃ report : RecoveryReport,
      (report.created = false ∧ report.issue = .cleanOpen ∧ report.bytesDiscarded = 0) ∧
      Store.open options (some (header ++ frames options records)) =
        ⟨report, some (header ++ frames options records),
          .ok (ofScan options (header ++ frames options records)
            ⟨records, positionAfter options records, (frames options records).length, none⟩)⟩ := by
  obtain ⟨report, hcreated, hopen⟩ := open_existing ho hh (frames options records)
  rw [hopen, scanFile_frames hh.length hg, recover]
  refine ⟨_, ?_, rfl⟩
  unfold noteBudget
  split <;> exact ⟨hcreated, rfl, rfl⟩

/-- What a store that opens holds. -/
theorem holds_ofScan (ho : Usable options) (hh : HeaderOk header)
    (hg : ∀ r ∈ records, FitsFrame options.maxRecordBytes r) (stop : Option ScanStop) :
    (ofScan options (header ++ frames options records)
      ⟨records, positionAfter options records, (frames options records).length, stop⟩).Holds
      header records [] where
  usable := ho
  headerOk := hh
  fits := hg
  file := (List.append_nil _).symm
  writeOffset := rfl
  validEnd := rfl
  position := rfl

/-- The parts of a file with a valid header: the header, the frames of the records the
scan finds, and the rest. -/
theorem scanFile_parts (options : StoreOptions) (file : List UInt8) :
    (∀ r ∈ (scanFile options file).records, FitsFrame options.maxRecordBytes r) ∧
    scanFile options file = ⟨(scanFile options file).records,
      positionAfter options (scanFile options file).records,
      (frames options (scanFile options file).records).length, (scanFile options file).stop⟩ ∧
    file = file.take kHeaderBytes ++ frames options (scanFile options file).records ++
      file.drop (kHeaderBytes + (scanFile options file).size) ∧
    ((scanFile options file).stop = none → file.length ≤ kHeaderBytes + (scanFile options file).size) := by
  obtain ⟨hgood, hstate, hsize, heq⟩ := LogFormat.scan_sound
    (lawful_storeFormat options.maxRecordBytes) logStart (file.drop kHeaderBytes)
  have hstop := LogFormat.scan_stop (lawful_storeFormat options.maxRecordBytes) logStart
    (file.drop kHeaderBytes)
  refine ⟨hgood, ?_, ?_, ?_⟩
  · have hs : scanFile options file = ⟨_, _, _, _⟩ := rfl
    rw [hs]
    simp only [LogFormat.Scan.mk.injEq, true_and, and_true]
    exact ⟨hstate, hsize⟩
  · rw [List.append_assoc, ← List.drop_drop]
    have hd : file.drop kHeaderBytes = frames options (scanFile options file).records ++
        (file.drop kHeaderBytes).drop (scanFile options file).size := heq
    rw [← hd, List.take_append_drop]
  · intro hnone
    have hnone' : ((storeFormat options.maxRecordBytes).scan logStart
      (file.drop kHeaderBytes)).stop = none := hnone
    rw [hnone'] at hstop
    have hs : (scanFile options file).size = (file.drop kHeaderBytes).length := hstop
    rw [hs, List.length_drop]
    omega

/-- The recovery goes on: the scan came to the end, or to a torn tail, or damage may be cut off. -/
def Recoverable (options : StoreOptions) (stop : Option ScanStop) : Prop :=
  ∀ s, stop = some s → s.tailIncomplete = true ∨ options.recoveryPolicy = .salvagePrefix

/-- **What a recovery comes to**: it keeps the validated part of the file, or refuses the file and
leaves it. -/
theorem recover_cases (options : StoreOptions) (file : List UInt8) (report : RecoveryReport)
    (scan : LogFormat.Scan LogPosition StoreRecord ScanStop)
    (hend : scan.stop = none → file.length ≤ kHeaderBytes + scan.size) :
    (Recoverable options scan.stop ∧ ∃ report' : RecoveryReport, report'.created = report.created ∧
      report'.recordsLoaded = scan.records.length ∧
      report'.bytesDiscarded = file.length - (kHeaderBytes + scan.size) ∧
      recover options file report scan = ⟨report', some (file.take (kHeaderBytes + scan.size)),
        .ok (ofScan options (file.take (kHeaderBytes + scan.size)) scan)⟩) ∨
    (¬ Recoverable options scan.stop ∧ ∃ report' error,
      recover options file report scan = ⟨report', some file, .error error⟩) := by
  have hbudget : ∀ offset r, (noteBudget options offset r).created = r.created ∧
      (noteBudget options offset r).recordsLoaded = r.recordsLoaded ∧
      (noteBudget options offset r).bytesDiscarded = r.bytesDiscarded := by
    intro offset r
    unfold noteBudget
    split <;> exact ⟨rfl, rfl, rfl⟩
  unfold recover Recoverable
  cases hstop : scan.stop with
  | none =>
    rw [List.take_of_length_le (hend hstop)]
    refine .inl ⟨fun s hs => (Option.some_ne_none s hs.symm).elim, _, ?_, ?_, ?_, rfl⟩
    · exact (hbudget _ _).1
    · exact (hbudget _ _).2.1
    · exact (hbudget _ _).2.2.trans (Nat.sub_eq_zero_of_le (hend hstop)).symm
  | some stop =>
    dsimp only
    split
    · rename_i hrefused
      refine .inr ⟨fun h => ?_, _, _, rfl⟩
      rcases h stop rfl with h | h <;> simp [h] at hrefused
    · rename_i hgoes
      refine .inl ⟨?_, _, ?_, ?_, ?_, rfl⟩
      · rintro s ⟨⟩
        simpa [or_iff_not_imp_left] using hgoes
      · exact (hbudget _ _).1
      · exact (hbudget _ _).2.1
      · exact (hbudget _ _).2.2

theorem disk_of_recover_error {error : Error}
    (h : (recover options file report (scanFile options file)).outcome = .error error) :
    (recover options file report (scanFile options file)).disk = some file := by
  rcases recover_cases options file report _ (scanFile_parts options file).2.2.2 with
    ⟨-, report', -, -, -, heq⟩ | ⟨-, report', error', heq⟩
  · rw [heq] at h
    cases h
  · rw [heq]

/-- A store that recovers holds the records that the scan found. -/
theorem holds_of_recover {options : StoreOptions} (ho : Usable options) {header rest : List UInt8}
    (hh : HeaderOk header) {report : RecoveryReport} {store : Store}
    (h : (recover options (header ++ rest) report (scanFile options (header ++ rest))).outcome =
      .ok store) :
    store.Holds header (scanFile options (header ++ rest)).records [] ∧ store.options = options ∧
      store.closed = false ∧ store.handleOpen = true ∧ store.replayed = false ∧
      (recover options (header ++ rest) report (scanFile options (header ++ rest))).disk =
        some store.file ∧
      (recover options (header ++ rest) report
        (scanFile options (header ++ rest))).report.created = report.created ∧
      Recoverable options (scanFile options (header ++ rest)).stop ∧
      ∃ tail, header ++ rest = store.file ++ tail := by
  obtain ⟨hgood, hscan, hfile, hend⟩ := scanFile_parts options (header ++ rest)
  generalize scanFile options (header ++ rest) = scan at h hgood hscan hfile hend ⊢
  rcases recover_cases options _ report _ hend with ⟨hgoes, report', hcreated, -, -, heq⟩ |
    ⟨-, report', error, heq⟩
  swap
  · rw [heq] at h
    cases h
  rw [heq] at h ⊢
  have hhead : (header ++ rest).take kHeaderBytes = header := by
    rw [← hh.length, List.take_left]
  rw [hhead] at hfile
  have hsize : scan.size = (frames options scan.records).length := by rw [hscan]
  have htake : (header ++ rest).take (kHeaderBytes + scan.size) =
      header ++ frames options scan.records := by
    rw [hfile, ← hh.length, hsize, ← List.length_append, List.take_left]
  rw [htake] at h ⊢
  obtain rfl := Except.ok.inj h
  refine ⟨?_, rfl, rfl, rfl, rfl, rfl, hcreated, hgoes, (header ++ rest).drop (kHeaderBytes + scan.size),
    hfile⟩
  rw [hscan]
  exact holds_ofScan ho hh hgood _

/-- A new log is its header. -/
theorem open_created (ho : Usable options) (hnil : disk.getD [] = []) :
    ∃ report : RecoveryReport, report.created = true ∧
      Store.open options disk =
        ⟨report, some storeHeader, .ok (ofScan options storeHeader ⟨[], logStart, 0, none⟩)⟩ := by
  have hpath := ho.path
  have hrecord := Nat.not_lt.mpr ho.record
  have hlog := Nat.not_lt.mpr ho.log
  simp only [Store.open, hpath, hrecord, hlog, hnil, Bool.false_eq_true, if_false]
  exact ⟨_, rfl, rfl⟩

/-- An open that does not come to the records leaves what is on the disk. -/
theorem open_cases (options : StoreOptions) (disk : Option (List UInt8)) :
    (∃ report error, Store.open options disk = ⟨report, disk, .error error⟩) ∨
    (Usable options ∧ (disk.getD [] = [] ∨
      ∃ header rest, HeaderOk header ∧ disk = some (header ++ rest))) := by
  unfold Store.open
  dsimp only
  split
  · exact .inl ⟨_, _, rfl⟩
  rename_i hpath
  split
  · exact .inl ⟨_, _, rfl⟩
  rename_i hrecord
  split
  · exact .inl ⟨_, _, rfl⟩
  rename_i hlog
  have husable : Usable options :=
    ⟨Bool.eq_false_of_not_eq_true hpath, Nat.not_lt.mp hrecord, Nat.not_lt.mp hlog⟩
  split
  · rename_i hnil
    exact .inr ⟨husable, .inl hnil⟩
  · rename_i byte bytes hcons
    have hdisk : disk = some (byte :: bytes) := by
      cases disk with
      | none => simp at hcons
      | some file =>
        rw [← hcons]
        rfl
    split
    · rename_i refusal hrefused
      obtain ⟨hsame, error, herror⟩ := checkHeader_eq_error hrefused
      exact .inl ⟨refusal.report, error, by rw [hdisk, ← hsame, ← herror]⟩
    · rename_i hok
      refine .inr ⟨husable, .inr ⟨(byte :: bytes).take kHeaderBytes, (byte :: bytes).drop kHeaderBytes,
        checkHeader_eq_ok.mp hok, ?_⟩⟩
      rw [List.take_append_drop, hdisk]

/-- A store opens only with usable options and on a file that is empty or has a header. -/
theorem usable_of_open (h : (Store.open options disk).outcome = .ok store) :
    Usable options ∧ (disk.getD [] = [] ∨
      ∃ header rest, HeaderOk header ∧ disk = some (header ++ rest)) := by
  refine (open_cases options disk).resolve_left ?_
  rintro ⟨report, error, heq⟩
  rw [heq] at h
  cases h

/-- A store that does not open leaves the file as it was. -/
theorem disk_of_open_error {error : Error}
    (h : (Store.open options disk).outcome = .error error) :
    (Store.open options disk).disk = disk := by
  rcases open_cases options disk with ⟨report, error', heq⟩ | ⟨ho, hnil | ⟨header, rest, hh, rfl⟩⟩
  · rw [heq]
  · obtain ⟨report, -, heq⟩ := open_created ho hnil
    rw [heq] at h
    cases h
  · obtain ⟨report, -, heq⟩ := open_existing ho hh rest
    rw [heq] at h ⊢
    exact disk_of_recover_error h

/-- **What opening makes of a log that goes on with something that is no record**: it cuts it off or
refuses the log. -/
theorem open_of_stop (ho : Usable options) (hh : HeaderOk header)
    (hg : ∀ r ∈ records, FitsFrame options.maxRecordBytes r) (hne : rest ≠ []) {stop : ScanStop}
    (hstop : scanRecord options.maxRecordBytes (positionAfter options records) rest = .error stop) :
    (Recoverable options (some stop) ∧ ∃ report : RecoveryReport, report.bytesDiscarded = rest.length ∧
      Store.open options (some (header ++ frames options records ++ rest)) =
        ⟨report, some (header ++ frames options records),
          .ok (ofScan options (header ++ frames options records) ⟨records,
            positionAfter options records, (frames options records).length, some stop⟩)⟩) ∨
    (¬ Recoverable options (some stop) ∧ ∃ report error,
      Store.open options (some (header ++ frames options records ++ rest)) =
        ⟨report, some (header ++ frames options records ++ rest), .error error⟩) := by
  obtain ⟨report, -, hopen⟩ := open_existing ho hh (frames options records ++ rest)
  have hscan := scanFile_log rest hh.length hg
  have hnone : (storeFormat options.maxRecordBytes).scan (positionAfter options records) rest =
      ⟨[], positionAfter options records, 0, some stop⟩ := LogFormat.scan_of_error hne hstop
  rw [hnone, List.append_nil, Nat.add_zero] at hscan
  rw [← List.append_assoc, hscan] at hopen
  have hlen : (header ++ frames options records).length =
      kHeaderBytes + (frames options records).length := by
    rw [List.length_append, hh.length]
  rw [hopen]
  rcases recover_cases options (header ++ frames options records ++ rest) report
    ⟨records, positionAfter options records, (frames options records).length, some stop⟩ (by simp) with
    ⟨hgoes, report', -, -, hdiscarded, heq⟩ | hrefused
  · refine .inl ⟨hgoes, report', hdiscarded.trans ?_, heq.trans ?_⟩
    · rw [List.length_append, hlen, Nat.add_sub_cancel_left]
    · rw [← hlen, List.take_left]
  · exact .inr hrefused

/-- **A store that opens** holds a clean log; either the log is new and holds no record,
or the records found are the front of what was there. -/
theorem open_eq_ok (h : (Store.open options disk).outcome = .ok store) :
    ∃ header records, store.Holds header records [] ∧ store.options = options ∧
      store.closed = false ∧ store.handleOpen = true ∧ store.replayed = false ∧
      (Store.open options disk).disk = some store.file ∧
      ((disk.getD [] = [] ∧ (Store.open options disk).report.created = true ∧ records = []) ∨
        (disk.getD [] ≠ [] ∧ (Store.open options disk).report.created = false ∧
          records = (scanFile options (disk.getD [])).records ∧
          Recoverable options (scanFile options (disk.getD [])).stop)) := by
  obtain ⟨ho, hnil | ⟨header, rest, hh, rfl⟩⟩ := usable_of_open h
  · obtain ⟨report, hcreated, hopen⟩ := open_created ho hnil
    rw [hopen] at h ⊢
    simp only [Except.ok.injEq] at h
    subst h
    refine ⟨storeHeader, [], ?_, rfl, rfl, rfl, rfl, rfl, .inl ⟨hnil, hcreated, rfl⟩⟩
    have hholds := holds_ofScan ho headerOk_storeHeader (List.forall_mem_nil _) none
    rwa [show frames options [] = [] from rfl, List.append_nil] at hholds
  · obtain ⟨report, hcreated, hopen⟩ := open_existing ho hh rest
    rw [hopen] at h ⊢
    obtain ⟨hholds, hoptions, hclosed, hhandle, hreplayed, hdisk, hcreated', hgoes, -⟩ :=
      holds_of_recover ho hh h
    exact ⟨header, _, hholds, hoptions, hclosed, hhandle, hreplayed, hdisk,
      .inr ⟨List.append_ne_nil_of_left_ne_nil hh.ne_nil rest, hcreated'.trans hcreated, rfl, hgoes⟩⟩

/-! ### Appending -/

section Append

variable {store : Store} {header stale : List UInt8} {records : List StoreRecord}

/-- A write at the offset replaces the front of what lies behind it. -/
theorem Holds.writeAt (h : store.Holds header records stale) (data : List UInt8) :
    Store.writeAt store.file store.writeOffset data =
      header ++ frames store.options records ++ (data ++ stale.drop data.length) := by
  have hlen : (header ++ frames store.options records).length = store.writeOffset := by
    rw [List.length_append, h.headerOk.length, h.writeOffset]
  have hgap : store.writeOffset - store.file.length = 0 := by
    rw [h.file, List.length_append]
    omega
  rw [Store.writeAt, hgap, List.replicate_zero, h.file, ← hlen, List.take_left, List.append_nil,
    ← List.drop_drop, List.drop_left, List.append_assoc]

theorem frames_concat (options : StoreOptions) (records : List StoreRecord) (record : StoreRecord) :
    frames options (records ++ [record]) =
      frames options records ++ recordFrame (positionAfter options records) record := by
  simp [frames, LogFormat.encode_append, LogFormat.encode, positionAfter, storeFormat]

theorem positionAfter_concat (options : StoreOptions) (records : List StoreRecord)
    (record : StoreRecord) :
    positionAfter options (records ++ [record]) =
      nextPosition (positionAfter options records) record := by
  simp [positionAfter, LogFormat.after, storeFormat]

/-- An acknowledged record is part of the log. -/
theorem Holds.advance (h : store.Holds header records stale)
    (hfit : FitsFrame store.options.maxRecordBytes record) :
    (store.advance record).Holds header (records ++ [record])
      (stale.drop (recordFrame store.position record).length) where
  usable := h.usable
  headerOk := h.headerOk
  fits := by
    intro r hr
    rcases List.mem_append.mp hr with hr | hr
    · exact h.fits r hr
    · rw [List.mem_singleton.mp hr]
      exact hfit
  file := by
    have hw := h.writeAt (recordFrame store.position record)
    simp only [Store.advance]
    rw [hw, frames_concat, ← h.position]
    simp only [List.append_assoc]
  writeOffset := by
    simp only [Store.advance]
    rw [frames_concat, List.length_append, ← h.position, h.writeOffset, Nat.add_assoc]
  validEnd := by
    simp only [Store.advance]
    rw [frames_concat, List.length_append, ← h.position, h.writeOffset, Nat.add_assoc]
  position := by
    have hp : (store.advance record).position = nextPosition store.position record := rfl
    rw [hp, h.position]
    exact (positionAfter_concat _ _ _).symm

/-- A record that was written and not acknowledged lies behind the log. -/
theorem Holds.leave (h : store.Holds header records stale) (data : List UInt8) :
    Holds { store with file := Store.writeAt store.file store.writeOffset data } header records
      (data ++ stale.drop data.length) :=
  ⟨h.usable, h.headerOk, h.fits, h.writeAt data, h.writeOffset, h.validEnd, h.position⟩

/-- Whether a store was replayed and whether its handle is open is not in its file. -/
theorem Holds.flags (h : store.Holds header records stale) (replayed handleOpen : Bool) :
    Holds { store with replayed := replayed, handleOpen := handleOpen } header records stale :=
  ⟨h.usable, h.headerOk, h.fits, h.file, h.writeOffset, h.validEnd, h.position⟩

/-- How many bytes an append writes: none when it refuses the record. -/
def writes (store : Store) (record : StoreRecord) (io : AppendIo) : Nat :=
  if store.closed || !store.replayed || !validRecordKind record.kind ||
      decide (record.payload.length > store.options.maxRecordBytes.toNat) ||
      decide (record.payload.length + kMinRecordBytes ≥ 2 ^ 64) || !store.handleOpen then 0
  else
    match io with
    | .torn written _ => min written (recordFrame store.position record).length
    | .notSynced _ | .written => (recordFrame store.position record).length

theorem writes_le (store : Store) (record : StoreRecord) (io : AppendIo) :
    store.writes record io ≤ (recordFrame store.position record).length := by
  unfold writes
  split
  · exact Nat.zero_le _
  · cases io with
    | torn n message => exact Nat.min_le_right _ _
    | notSynced message => exact Nat.le_refl _
    | written => exact Nat.le_refl _

/-- **What an append does**: it acknowledges the record and the log holds it, or it
refuses and writes nothing, or it fails and leaves some front part of the frame behind
the log. -/
theorem append_cases (store : Store) (hlen : record.payload.length + 56 < 2 ^ 32) (io : AppendIo) :
    (FitsFrame store.options.maxRecordBytes record ∧
      store.writes record io = (recordFrame store.position record).length ∧
      store.append record io = (store.advance record, .ok ())) ∨
    (∃ error, store.append record io = (store, .error error)) ∨
    (FitsFrame store.options.maxRecordBytes record ∧ io ≠ .written ∧
      ∃ error, store.append record io = ({ store with
        file := Store.writeAt store.file store.writeOffset
          ((recordFrame store.position record).take (store.writes record io)) }, .error error)) := by
  unfold append
  split
  · exact .inr (.inl ⟨_, rfl⟩)
  rename_i hclosed
  split
  · exact .inr (.inl ⟨_, rfl⟩)
  rename_i hreplayed
  split
  · exact .inr (.inl ⟨_, rfl⟩)
  rename_i hkind
  split
  · exact .inr (.inl ⟨_, rfl⟩)
  rename_i hlimit
  split
  · exact .inr (.inl ⟨_, rfl⟩)
  rename_i hwide
  split
  · exact .inr (.inl ⟨_, rfl⟩)
  rename_i hhandle
  have hfit : FitsFrame store.options.maxRecordBytes record :=
    ⟨by simpa using hkind, Nat.not_lt.mp hlimit, hlen⟩
  simp only [writes, hclosed, hreplayed, hkind, hlimit, hwide, hhandle, decide_false, Bool.or_self,
    Bool.false_eq_true, if_false]
  cases io with
  | written => exact .inl ⟨hfit, rfl, rfl⟩
  | torn n message =>
    rw [← List.take_eq_take_min]
    exact .inr (.inr ⟨hfit, by simp, _, rfl⟩)
  | notSynced message =>
    dsimp only
    rw [List.take_length]
    split
    · exact .inr (.inr ⟨hfit, by simp, _, rfl⟩)
    · exact .inl ⟨hfit, rfl, rfl⟩

/-- An append that is acknowledged. -/
theorem append_acknowledged (hlen : record.payload.length + 56 < 2 ^ 32) {io : AppendIo}
    (h : (store.append record io).2.isOk = true) :
    FitsFrame store.options.maxRecordBytes record ∧
      store.append record io = (store.advance record, .ok ()) := by
  rcases append_cases store hlen io with ⟨hfit, -, happ⟩ | ⟨error, happ⟩ | ⟨-, -, error, happ⟩
  · exact ⟨hfit, happ⟩
  · rw [happ] at h
    cases h
  · rw [happ] at h
    cases h

end Append

/-! ### Rewriting -/

section Rewrite

variable {records : List StoreRecord}

theorem fits_of_checkRewrite (h : checkRewrite options record = .ok ())
    (hlen : record.payload.length + 56 < 2 ^ 32) : FitsFrame options.maxRecordBytes record := by
  simp only [checkRewrite, refuseIf_bind_eq_ok] at h
  exact ⟨by simpa using h.1, by simpa using h.2.1, hlen⟩

theorem forM_checkRewrite : records.forM (checkRewrite options) = .ok () ↔
    ∀ record ∈ records, checkRewrite options record = .ok () := by
  induction records with
  | nil => exact ⟨fun _ => List.forall_mem_nil _, fun _ => rfl⟩
  | cons record records ih =>
    rw [List.forall_mem_cons, ← ih]
    show (checkRewrite options record >>= fun _ => records.forM (checkRewrite options)) = .ok () ↔ _
    cases checkRewrite options record with
    | error error => simp [bind, Except.bind]
    | ok _ => simp [bind, Except.bind]

/-- **What a rewrite comes to**: the store as it was but for its handle, or a new log behind a store
that cannot write, or a store with the new log. -/
theorem rewrite_cases (store : Store) (records : List StoreRecord) (io : RewriteIo) :
    (∃ handleOpen error,
      store.rewrite records io = ({ store with handleOpen := handleOpen }, .error error)) ∨
    ((∀ record ∈ records, checkRewrite store.options record = .ok ()) ∧
      ((∃ error, io = .notReopened error ∧ store.rewrite records io =
          ({ store with file := rewritten store.options records, handleOpen := false }, .error error)) ∨
        ∃ store', store.rewrite records io = (store', .ok ()) ∧
          store'.file = rewritten store.options records ∧ store'.options = store.options ∧
          store'.closed = false ∧ store'.replayed = true ∧ (Usable store.options →
            (∀ record ∈ records, record.payload.length + 56 < 2 ^ 32) →
            store'.Holds storeHeader records []))) := by
  unfold rewrite
  split
  · exact .inl ⟨store.handleOpen, _, rfl⟩
  rename_i hclosed
  split
  · exact .inl ⟨store.handleOpen, _, rfl⟩
  rename_i hreplayed
  cases hcheck : records.forM (checkRewrite store.options) with
  | error error => cases io <;> exact .inl ⟨store.handleOpen, _, rfl⟩
  | ok _ =>
    have hchecked := forM_checkRewrite.mp hcheck
    cases io with
    | failed error => exact .inl ⟨store.handleOpen, error, rfl⟩
    | notReplaced restored error => exact .inl ⟨restored, error, rfl⟩
    | notReopened error => exact .inr ⟨hchecked, .inl ⟨error, rfl, rfl⟩⟩
    | done =>
      have hlength : (rewritten store.options records).length =
          kHeaderBytes + (frames store.options records).length := by
        unfold rewritten
        rw [List.length_append, headerOk_storeHeader.length]
        rfl
      refine .inr ⟨hchecked, .inr ⟨_, rfl, rfl, rfl, by simpa using hclosed, by simpa using hreplayed, ?_⟩⟩
      intro husable hlen
      exact ⟨husable, headerOk_storeHeader,
        fun record hmem => fits_of_checkRewrite (hchecked record hmem) (hlen record hmem),
        (List.append_nil _).symm, hlength, hlength, rfl⟩

end Rewrite

/-! ### Replaying -/

section Visit

variable {σ : Type} (visit : σ → StoreRecord → σ × Bool)

/-- The visitor called on every record of a list, until it stops. -/
def visitAll : σ → List StoreRecord → σ
  | s, [] => s
  | s, record :: records =>
    if (visit s record).2 then visitAll (visit s record).1 records else (visit s record).1

/-- The replay of a validated part calls the visitor on the records whose frames it is. -/
theorem visitFuel_frames (store : Store) {maxRecordBytes : UInt64} (records : List StoreRecord)
    (tail : List UInt8) (hg : ∀ r ∈ records, FitsFrame maxRecordBytes r) (fuel : Nat)
    (position : LogPosition) (offset : Nat) (s : σ) (hfuel : records.length ≤ fuel)
    (hfile : store.file.drop offset =
      (storeFormat maxRecordBytes).encode position records ++ tail)
    (hend : store.validEnd =
      offset + ((storeFormat maxRecordBytes).encode position records).length) :
    store.visitFuel visit fuel offset s = .ok (visitAll visit s records) := by
  induction records generalizing fuel position offset s with
  | nil =>
    have hnot : ¬ offset < store.validEnd := by
      rw [hend]
      simp [LogFormat.encode]
    cases fuel <;> simp [visitFuel, visitAll, hnot]
  | cons record records ih =>
    cases fuel with
    | zero => simp at hfuel
    | succ fuel =>
      rw [List.forall_mem_cons] at hg
      have hsplit : store.file.drop offset = recordFrame position record ++
          ((storeFormat maxRecordBytes).encode (nextPosition position record) records ++ tail) := by
        rw [hfile, LogFormat.encode, List.append_assoc]
        rfl
      have hframe := length_recordFrame position record
      have hlength := hg.1.length
      have hvalid : store.validEnd = offset + (record.payload.length + 60) +
          ((storeFormat maxRecordBytes).encode (nextPosition position record) records).length := by
        rw [hend, LogFormat.encode, List.length_append, ← Nat.add_assoc, ← hframe]
        rfl
      have hlt : offset < store.validEnd := by omega
      have hnext := ih hg.2 fuel (nextPosition position record)
        (offset + (record.payload.length + 60)) (visit s record).1 (by simpa using hfuel)
        (by rw [← List.drop_drop, hsplit, ← hframe, List.drop_left]) hvalid
      generalize (storeFormat maxRecordBytes).encode (nextPosition position record) records ++ tail =
        rest at hsplit
      have hkind : (⟨UInt16.ofNat (load 2 (recordFrame position record ++ rest) 4)⟩ : RecordKind) =
          record.kind := by
        rw [load_frame_kind, UInt16.ofNat_toNat]
      have hpayload := slice_frame_payload position record
      simp only [slice] at hpayload
      have htake : (recordFrame position record ++ rest).take (record.payload.length + 60) =
          recordFrame position record := by
        rw [← hframe, List.take_left]
      have htotal : (recordFrame position record ++ rest).length =
          record.payload.length + (60 + rest.length) := by
        rw [List.length_append, hframe, Nat.add_assoc]
      have hshort : ¬ record.payload.length + (60 + rest.length) < 24 := by omega
      have hlong : ¬ record.payload.length + (60 + rest.length) < record.payload.length + 60 := by
        omega
      simp only [visitFuel, hlt, if_true, hsplit, load_frame_length position record rest hlength,
        load_frame_payloadBytes position record rest (by omega), hkind, htotal, htake, hpayload,
        kRecordHeaderBytes, Nat.reduceAdd, hshort, hlong, if_false, Nat.add_assoc, hnext, visitAll,
        apply_ite Except.ok]

/-- **The replay of a store visits the records it holds.** -/
theorem Holds.visitRecords {store : Store} {header stale : List UInt8} {records : List StoreRecord}
    (h : store.Holds header records stale) (hclosed : store.closed = false)
    (hreplayed : store.replayed = false) (s : σ) :
    store.visitRecords visit s = .ok ({ store with replayed := true }, visitAll visit s records) := by
  have hdrop : store.file.drop kHeaderBytes = frames store.options records ++ stale := by
    rw [h.file, ← h.headerOk.length, List.append_assoc, List.drop_left]
  have hcount : records.length ≤ (frames store.options records).length :=
    LogFormat.length_le_encode (lawful_storeFormat _) _ _
  have hlen : records.length ≤ store.file.length := by
    rw [h.file, List.length_append, List.length_append]
    omega
  have hvisit := visitFuel_frames visit store records stale h.fits store.file.length logStart
    kHeaderBytes s hlen hdrop h.validEnd
  simp only [Store.visitRecords, hclosed, hreplayed, Bool.false_eq_true, if_false, hvisit]
  rfl

end Visit

end Store

end CableRegistry
