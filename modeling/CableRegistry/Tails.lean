import CableRegistry.StoreRuns
import Mathlib.Data.List.TakeWhile

/-!
# Logs that others left behind

A log may be opened under other options than it was written with, and after a crash that left
a part of one more frame behind it.  `LogFile` says that a file is such a log.

* `LogFile.open_ok`: a store that opens on it finds its first records, and under the strict
  policy all of them.
* `LogFile.append`, `LogFile.rewrite`: whatever becomes of a write, the file is a log of the
  records of before, or of those the write was to leave.
* `LogFile.take`: a log that loses its end is a log of fewer records.
-/

namespace CableRegistry

/-- The record has a frame, whatever limit a store puts on its payload. -/
structure Frameable (record : StoreRecord) : Prop where
  kind : validRecordKind record.kind = true
  length : record.payload.length + 56 < 2 ^ 32

variable {header : List UInt8} {store : Store} {record : StoreRecord} {maxRecordBytes : UInt64}

theorem FitsFrame.frameable (h : FitsFrame maxRecordBytes record) :
    Frameable record := ⟨h.kind, h.length⟩

theorem Frameable.fits {maxRecordBytes : UInt64} {record : StoreRecord} (h : Frameable record)
    (hsize : record.payload.length ≤ maxRecordBytes.toNat) : FitsFrame maxRecordBytes record :=
  ⟨h.kind, hsize, h.length⟩

/-- A record that is over the limit of the store reads as damage. -/
theorem scanRecord_large (position : LogPosition) (h : Frameable record)
    (hlarge : maxRecordBytes.toNat < record.payload.length) (tail : List UInt8) :
    ∃ detail, scanRecord maxRecordBytes position (recordFrame position record ++ tail) =
      .error (damagedRecord detail) := by
  have hlen : (recordFrame position record ++ tail).length =
      record.payload.length + 60 + tail.length := by
    rw [List.length_append, length_recordFrame]
  have hkind : (⟨UInt16.ofNat (load 2 (recordFrame position record ++ tail) 4)⟩ : RecordKind) =
      record.kind := by
    rw [load_frame_kind, UInt16.ofNat_toNat]
  have hsize := h.length
  refine ⟨"record payload exceeds the configured limit", ?_⟩
  simp only [scanRecord, refuseIf_bind_eq_error, hlen, hkind, load_frame_length position record tail hsize,
    load_frame_flags, load_frame_payloadBytes position record tail (by omega), h.kind]
  refine .inr ⟨?_, .inr ⟨?_, .inr ⟨?_, .inr ⟨?_, .inr ⟨?_, .inr ⟨?_, .inl ⟨?_, trivial⟩⟩⟩⟩⟩⟩⟩
  · exact decide_eq_false (by simp only [kRecordHeaderBytes]; omega)
  · exact decide_eq_false (by omega)
  · exact decide_eq_false (by
      simp only [kMinRecordBytes, kRecordHeaderBytes, kRecordTrailerBytes, kChainBytes]
      omega)
  · rfl
  · rfl
  · simp only [kRecordHeaderBytes, kRecordTrailerBytes, kChainBytes, bne_eq_false_iff_eq]
  · simpa using hlarge

namespace Store

/-! ### The file -/

/-- The file is a log of the records, and at most a part of one more frame lies behind them. -/
structure LogFile (options : StoreOptions) (file : List UInt8) (records : List StoreRecord) :
    Prop where
  frameable : ∀ r ∈ records, Frameable r
  parts : ∃ header record n, HeaderOk header ∧ record.payload.length + 56 < 2 ^ 32 ∧
    n < (recordFrame (positionAfter options records) record).length ∧
    file = header ++ frames options records ++
      (recordFrame (positionAfter options records) record).take n

section LogFile

variable {options options' : StoreOptions} {file : List UInt8} {records : List StoreRecord}

/-- Whether a file is a log does not depend on the options. -/
theorem LogFile.under (h : LogFile options file records) (options' : StoreOptions) :
    LogFile options' file records := by
  obtain ⟨header, record, n, hh, hlen, hn, hfile⟩ := h.parts
  rw [positionAfter_options options options', frames_options options options'] at hfile
  rw [positionAfter_options options options'] at hn
  exact ⟨h.frameable, header, record, n, hh, hlen, hn, hfile⟩

theorem LogFile.length_ge (h : LogFile options file records) : kHeaderBytes ≤ file.length := by
  obtain ⟨header, record, n, hh, -, -, rfl⟩ := h.parts
  rw [List.length_append, List.length_append, hh.length]
  omega

theorem LogFile.ne_nil (h : LogFile options file records) : file ≠ [] := by
  rintro rfl
  exact absurd h.length_ge (by decide)

/-- The log of a store in use. -/
theorem LogFile.of_holds {store : Store} {header : List UInt8} (h : store.Holds header records []) :
    LogFile store.options store.file records := by
  refine ⟨fun r hr => (h.fits r hr).frameable, header, sampleRecord, 0, h.headerOk, by decide, ?_, ?_⟩
  · rw [length_recordFrame]
    omega
  · rw [List.take_zero, h.file]

/-! ### Opening it -/

/-- **What a scan finds in a log**: its first records, and all of them unless it meets one that
is over the limit. -/
theorem LogFile.scan (h : LogFile options file records) :
    ∃ after, records = (scanFile options file).records ++ after ∧
      (after = [] ∨ ∃ detail, (scanFile options file).stop = some (damagedRecord detail)) := by
  obtain ⟨header, record, n, hh, hlen, hn, hfile⟩ := h.parts
  -- the records up to the first that is over the limit
  have hsplit : ∀ p : StoreRecord → Bool, records.takeWhile p ++ records.dropWhile p = records :=
    fun p => List.takeWhile_append_dropWhile
  obtain ⟨before, after, rfl, hbefore, hafter⟩ : ∃ before after, records = before ++ after ∧
      (∀ r ∈ before, r.payload.length ≤ options.maxRecordBytes.toNat) ∧
      ∀ r rest, after = r :: rest → options.maxRecordBytes.toNat < r.payload.length := by
    refine ⟨_, _, (hsplit fun r => decide (r.payload.length ≤ options.maxRecordBytes.toNat)).symm,
      ?_, ?_⟩
    · intro r hr
      simpa using List.mem_takeWhile_imp hr
    · intro r rest heq
      have hhead := List.head?_dropWhile_not
        (fun r : StoreRecord => decide (r.payload.length ≤ options.maxRecordBytes.toNat)) records
      rw [heq] at hhead
      simpa using hhead
  have hfits : ∀ r ∈ before, FitsFrame options.maxRecordBytes r := fun r hr =>
    (h.frameable r (List.mem_append_left _ hr)).fits (hbefore r hr)
  cases after with
  | nil =>
    refine ⟨[], ?_, .inl rfl⟩
    rw [List.append_nil, List.append_nil] at *
    rw [hfile, scanFile_log _ hh.length hfits]
    by_cases hnil : (recordFrame (positionAfter options before) record).take n = []
    · rw [hnil, LogFormat.scan_nil, List.append_nil]
    · obtain ⟨detail, hstop⟩ := @scanRecord_front n record options.maxRecordBytes
        (positionAfter options before) hlen hn
      rw [LogFormat.scan_of_error hnil hstop, List.append_nil]
  | cons large rest =>
    have hlarge := hafter large rest rfl
    obtain ⟨tail, htail⟩ : ∃ tail, file = header ++ frames options before ++
        (recordFrame (positionAfter options before) large ++ tail) := by
      rw [hfile, frames_split]
      simp only [List.append_assoc]
      exact ⟨_, rfl⟩
    obtain ⟨detail, hstop⟩ := scanRecord_large (positionAfter options before)
      (h.frameable large (by simp)) hlarge tail
    have hne : recordFrame (positionAfter options before) large ++ tail ≠ [] :=
      List.append_ne_nil_of_left_ne_nil ((lawful_storeFormat 0).frame_ne_nil _ _) _
    rw [htail, scanFile_log _ hh.length hfits, LogFormat.scan_of_error hne hstop, List.append_nil]
    exact ⟨large :: rest, rfl, .inr ⟨detail, rfl⟩⟩

/-- The file starts with a whole record that the options admit. -/
def StartsWithRecord (options : StoreOptions) (file : List UInt8) : Prop :=
  ∃ header record rest, header.length = kHeaderBytes ∧ FitsFrame options.maxRecordBytes record ∧
    file = header ++ recordFrame logStart record ++ rest

/-- A scan finds a record where there is one. -/
theorem startsWithRecord_iff (hlen : kHeaderBytes ≤ file.length) :
    StartsWithRecord options file ↔ (scanFile options file).records ≠ [] := by
  have hframes : ∀ record, frames options [record] = recordFrame logStart record := fun record =>
    List.append_nil _
  constructor
  · rintro ⟨header, record, rest, hheader, hfit, rfl⟩
    rw [← hframes, scanFile_log _ hheader (by simpa using hfit)]
    simp
  · intro hfound
    obtain ⟨hgood, -, hfile, -⟩ := scanFile_parts options file
    cases hrecords : (scanFile options file).records with
    | nil => exact absurd hrecords hfound
    | cons record records =>
      rw [hrecords] at hgood hfile
      have hsplit : frames options (record :: records) = recordFrame logStart record ++
          (storeFormat options.maxRecordBytes).encode (nextPosition logStart record) records := rfl
      rw [hsplit, ← List.append_assoc, List.append_assoc] at hfile
      refine ⟨_, record, _, ?_, hgood record List.mem_cons_self, hfile⟩
      rw [List.length_take, Nat.min_eq_left hlen]

/-- **What opens on a log** finds its first records, and under the strict policy all of them. -/
theorem LogFile.open_ok (h : LogFile options file records) {opened : Store}
    (hopen : (Store.open options (some file)).outcome = .ok opened) :
    ∃ after, records = (scanFile options file).records ++ after ∧
      (options.recoveryPolicy = .strict → after = []) := by
  obtain ⟨after, hsplit, hafter⟩ := h.scan
  obtain ⟨-, -, -, -, -, -, -, -, ⟨hnil, -⟩ | ⟨-, -, -, hgoes⟩⟩ := open_eq_ok hopen
  · exact absurd hnil h.ne_nil
  · refine ⟨after, hsplit, fun hstrict => hafter.resolve_right ?_⟩
    rintro ⟨detail, hstop⟩
    exact absurd (hgoes _ hstop) (by simp [damagedRecord, hstrict])

/-! ### Writing to it -/

/-- **Whatever becomes of an append**, the log holds the records of before, or those and the
new one. -/
theorem LogFile.append (h : store.Holds header records [])
    (hlen : record.payload.length + 56 < 2 ^ 32) (io : AppendIo) :
    LogFile store.options (store.append record io).1.file records ∨
      LogFile store.options (store.append record io).1.file (records ++ [record]) := by
  rcases append_cases store hlen io with ⟨hfit, -, happ⟩ | ⟨error, happ⟩ | ⟨hfit, -, error, happ⟩
  · rw [happ]
    exact .inr (.of_holds (by simpa using h.advance hfit))
  · rw [happ]
    exact .inl (.of_holds h)
  · rw [happ]
    have hfile := h.writeAt ((recordFrame store.position record).take (store.writes record io))
    rw [List.drop_nil, List.append_nil] at hfile
    by_cases hpart : store.writes record io < (recordFrame store.position record).length
    · rw [h.position] at hpart hfile
      refine .inl ⟨fun r hr => (h.fits r hr).frameable, header, record, _, h.headerOk, hlen, hpart, ?_⟩
      rw [← hfile, h.position]
    · -- the whole frame was written, and only its acknowledgement is missing
      rw [List.take_of_length_le (Nat.not_lt.mp hpart)]
      exact .inr (.of_holds (by simpa using h.advance hfit))

/-- The file of a store that was rewritten. -/
theorem logFile_rewritten (hcheck : ∀ record ∈ records, checkRewrite options record = .ok ())
    (hlen : ∀ record ∈ records, record.payload.length + 56 < 2 ^ 32) :
    LogFile options (rewritten options records) records := by
  refine ⟨fun r hr => (fits_of_checkRewrite (hcheck r hr) (hlen r hr)).frameable, storeHeader,
    sampleRecord, 0, headerOk_storeHeader, by decide, ?_, ?_⟩
  · rw [length_recordFrame]
    omega
  · rw [List.take_zero, List.append_nil]
    rfl

/-- **Whatever becomes of a rewrite**, the log holds the records of before, or the new one. -/
theorem LogFile.rewrite (h : store.Holds header records [])
    (hlen : record.payload.length + 56 < 2 ^ 32) (io : RewriteIo) :
    LogFile store.options (store.rewrite [record] io).1.file records ∨
      LogFile store.options (store.rewrite [record] io).1.file [record] := by
  have hlen : ∀ r ∈ [record], r.payload.length + 56 < 2 ^ 32 := List.forall_mem_singleton.mpr hlen
  rcases store.rewrite_cases [record] io with ⟨handleOpen, error, heq⟩ |
    ⟨hcheck, ⟨error, -, heq⟩ | ⟨store', heq, hfile, -⟩⟩
  · rw [heq]
    exact .inl (.of_holds h)
  · rw [heq]
    exact .inr (logFile_rewritten hcheck hlen)
  · rw [heq, hfile]
    exact .inr (logFile_rewritten hcheck hlen)

/-- **A log that loses its end** is a log of its first records. -/
theorem LogFile.take (h : LogFile options file records) {n : Nat} (hn : kHeaderBytes ≤ n) :
    ∃ before after, records = before ++ after ∧ LogFile options (file.take n) before := by
  obtain ⟨header, record, m, hh, hlen, hm, hfile⟩ := h.parts
  by_cases hcut : n < (header ++ frames options records).length
  · -- the cut falls inside the log, and `take_log` says where
    have htake : file.take n = (header ++ frames options records).take n := by
      rw [hfile, List.take_append_of_le_length (Nat.le_of_lt hcut)]
    obtain ⟨before, after, rest, rfl, hparts, -, -, hrest⟩ := take_log options hh records hn
    refine ⟨before, after, rfl, fun r hr => h.frameable r (List.mem_append_left _ hr), header, ?_⟩
    rw [htake, hparts]
    rcases hrest with rfl | ⟨next, k, hnext, hk, rfl⟩
    · refine ⟨record, 0, hh, hlen, ?_, by rw [List.take_zero]⟩
      rw [length_recordFrame]
      omega
    · exact ⟨next, k, hh, (h.frameable next (List.mem_append_right _ hnext)).length, hk, rfl⟩
  · refine ⟨records, [], (List.append_nil _).symm, h.frameable, header, record,
      min (n - (header ++ frames options records).length) m, hh, hlen, by omega, ?_⟩
    rw [hfile, List.take_append, List.take_of_length_le (Nat.not_lt.mp hcut), List.take_take]

end LogFile

end Store

end CableRegistry
