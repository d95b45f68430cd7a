import CableRegistry.Digest
import CableRegistry.Lib.FramedLog
import CableRegistry.Lib.LittleEndian
import CableRegistry.Vocabulary

/-!
# The append-only store

The log is a header and a sequence of frames.  A frame carries its length, kind,
sequence number, payload, payload checksum, the running chain digest and a
checksum of the whole.  `Store.open` scans and validates the log, and truncates a
tail that looks like a record cut short; `Store.append` writes at the write
offset and moves the offset only when the write and the flush succeeded.

The disk is the contents of one file.  What an operation of the operating system
does is an argument: `AppendIo` and `RewriteIo` say where a write, a flush or a
rename failed.  Reading does not fail.
-/

namespace CableRegistry

/-! ### Options and reports -/

/-- What a store may do when the tail of the log is damaged. -/
inductive RecoveryPolicy where
  | strict | salvagePrefix
  deriving Repr, DecidableEq

/-- The kind field of a frame. -/
structure RecordKind where
  raw : UInt16
  deriving Repr, DecidableEq

namespace RecordKind
def sessionOpen : RecordKind := ⟨1⟩
def sessionClose : RecordKind := ⟨2⟩
def evidence : RecordKind := ⟨3⟩
def stateSnapshot : RecordKind := ⟨4⟩
end RecordKind

def validRecordKind (kind : RecordKind) : Bool :=
  kind == .sessionOpen || kind == .sessionClose || kind == .evidence || kind == .stateSnapshot

structure StoreOptions where
  path : String
  maxRecordBytes : UInt64 := 1048576
  maxLogBytes : UInt64 := 268435456
  maxRecordsBeforeCompaction : UInt32 := 200000
  fsyncOnCommit : Bool := true
  recoveryPolicy : RecoveryPolicy := .strict
  deriving Repr, DecidableEq

inductive RecoveryIssue where
  | created | cleanOpen | truncatedTail | corruptRecordSalvaged | badHeader | chainBreak
  | unsupportedVersion | ioFailure
  deriving Repr, DecidableEq

/-- The result of opening a store. -/
structure RecoveryReport where
  opened : Bool := false
  created : Bool := false
  salvaged : Bool := false
  chainIntact : Bool := false
  formatVersion : UInt32 := 0
  recordsLoaded : Nat := 0
  recordsRejected : Nat := 0
  bytesLoaded : Nat := 0
  bytesDiscarded : Nat := 0
  issue : RecoveryIssue := .created
  issueOffset : Nat := 0
  detail : String := ""
  deriving Repr, DecidableEq

structure StoreRecord where
  kind : RecordKind
  payload : List UInt8
  deriving Repr, DecidableEq

/-! ### Frames -/

/-- The magic "CABLEARG". -/
def kStoreMagic : List UInt8 := [67, 65, 66, 76, 69, 65, 82, 71]

def kHeaderBytes : Nat := 8 + 4 + 4 + 4 + 4
def kRecordHeaderBytes : Nat := 4 + 2 + 2 + 8 + 4 + 4
def kChainBytes : Nat := 32
def kRecordTrailerBytes : Nat := kChainBytes + 4
def kMinRecordBytes : Nat := kRecordHeaderBytes + kRecordTrailerBytes

/-- The little-endian number of `width` bytes at an offset. -/
def load (width : Nat) (bytes : List UInt8) (offset : Nat) : Nat :=
  leValue ((bytes.drop offset).take width)

/-- The header without its checksum. -/
def headerFields : List UInt8 :=
  kStoreMagic ++ leBytes 4 kStoreFormatVersion.toNat ++ leBytes 4 0 ++ leBytes 4 kHeaderBytes

def storeHeader : List UInt8 := headerFields ++ leBytes 4 (crc32c headerFields).toNat

/-- Where in the log a record stands: the chain digest before it and its sequence. -/
structure LogPosition where
  chain : Digest256
  sequence : UInt64
  deriving DecidableEq

/-- The position of the first record. -/
def logStart : LogPosition := ⟨sha256 [], 1⟩

/-- The chain contribution of one record: everything from the kind field up to the end
of the payload. -/
def chainStep (previous : Digest256) (headerFromKind payload : List UInt8) : Digest256 :=
  (((({} : Sha256).update previous.toList).update headerFromKind).update payload).finish

/-- The record header after the length field. -/
def headerFromKind (sequence : UInt64) (record : StoreRecord) : List UInt8 :=
  leBytes 2 record.kind.raw.toNat ++ leBytes 2 0 ++ leBytes 8 sequence.toNat ++
    leBytes 4 record.payload.length ++ leBytes 4 (crc32c record.payload).toNat

def recordChain (position : LogPosition) (record : StoreRecord) : Digest256 :=
  chainStep position.chain (headerFromKind position.sequence record) record.payload

/-- The frame without its checksum.  The length does not count its own four bytes. -/
def frameBody (position : LogPosition) (record : StoreRecord) : List UInt8 :=
  leBytes 4 (record.payload.length + kMinRecordBytes - 4) ++ headerFromKind position.sequence record ++
    record.payload ++ (recordChain position record).toList

def recordFrame (position : LogPosition) (record : StoreRecord) : List UInt8 :=
  frameBody position record ++ leBytes 4 (crc32c (frameBody position record)).toNat

def nextPosition (position : LogPosition) (record : StoreRecord) : LogPosition :=
  ⟨recordChain position record, position.sequence + 1⟩

/-! ### Scanning -/

/-- Why a scan stopped. -/
structure ScanStop where
  tailIncomplete : Bool
  issue : RecoveryIssue
  detail : String
  deriving Repr, DecidableEq

def tornRecord (detail : String) : ScanStop := ⟨true, .truncatedTail, detail⟩

def damagedRecord (detail : String) : ScanStop := ⟨false, .corruptRecordSalvaged, detail⟩

def brokenChain (detail : String) : ScanStop := ⟨false, .chainBreak, detail⟩

/-- One round of the scan: the record at the front of the bytes that remain, and the
size of its frame. -/
def scanRecord (maxRecordBytes : UInt64) (position : LogPosition) (rest : List UInt8) :
    Except ScanStop (StoreRecord × Nat) := do
  refuseIf (rest.length < kRecordHeaderBytes)
    (tornRecord "trailing bytes shorter than a record header")
  let frameBytes := load 4 rest 0
  let kind : RecordKind := ⟨UInt16.ofNat (load 2 rest 4)⟩
  let flags := load 2 rest 6
  let sequence := load 8 rest 8
  let payloadBytes := load 4 rest 16
  let payloadCrc := load 4 rest 20
  refuseIf (frameBytes + 4 > rest.length) (tornRecord "record extends past the end of the store")
  refuseIf (frameBytes < kMinRecordBytes - 4) (damagedRecord "record frame length is too small")
  refuseIf (flags != 0) (damagedRecord "record flags are not understood")
  refuseIf (!validRecordKind kind) (damagedRecord "record kind is not understood")
  refuseIf (payloadBytes + kRecordHeaderBytes + kRecordTrailerBytes != frameBytes + 4)
    (damagedRecord "record payload length is inconsistent")
  refuseIf (payloadBytes > maxRecordBytes.toNat)
    (damagedRecord "record payload exceeds the configured limit")
  refuseIf (sequence != position.sequence.toNat) (brokenChain "record sequence is not contiguous")
  let frame := rest.take (frameBytes + 4)
  let crcOffset := kRecordHeaderBytes + payloadBytes + kChainBytes
  refuseIf (load 4 frame crcOffset != (crc32c (frame.take crcOffset)).toNat)
    (damagedRecord "record checksum does not match")
  let payload := (frame.drop kRecordHeaderBytes).take payloadBytes
  refuseIf ((crc32c payload).toNat != payloadCrc)
    (damagedRecord "record payload checksum does not match")
  let expected := chainStep position.chain ((frame.drop 4).take (kRecordHeaderBytes - 4)) payload
  refuseIf ((frame.drop (kRecordHeaderBytes + payloadBytes)).take kChainBytes != expected.toList)
    (brokenChain "record chain digest does not match")
  pure (⟨kind, payload⟩, frameBytes + 4)

/-- The log as a format of frames. -/
def storeFormat (maxRecordBytes : UInt64) : LogFormat UInt8 LogPosition StoreRecord ScanStop where
  frame := recordFrame
  next := nextPosition
  head := scanRecord maxRecordBytes

/-! ### The store -/

structure Store where
  options : StoreOptions
  /-- The contents of the file. -/
  file : List UInt8
  /-- The file handle is open. -/
  handleOpen : Bool := true
  writeOffset : Nat
  validEnd : Nat
  nextSequence : UInt64
  chain : Digest256
  bytesOnDisk : Nat
  recordsWritten : Nat := 0
  recordsLoaded : Nat := 0
  recordsSinceRewrite : Nat := 0
  rewriteCount : Nat := 0
  replayed : Bool := false
  closed : Bool := false

namespace Store

def position (store : Store) : LogPosition := ⟨store.chain, store.nextSequence⟩

def shouldCompact (store : Store) : Bool :=
  store.recordsSinceRewrite ≥ store.options.maxRecordsBeforeCompaction.toNat ||
    store.bytesOnDisk ≥ store.options.maxLogBytes.toNat

/-- What opening a store leaves: the report, the file and the store or the error. -/
structure Opening where
  report : RecoveryReport
  disk : Option (List UInt8)
  outcome : Outcome Store

/-- A refusal because of the header. -/
def badHeader (file : List UInt8) (report : RecoveryReport) (code : ErrorCode) (message : String) :
    Opening :=
  ⟨{ report with opened := false, chainIntact := false }, some file, makeError code message⟩

/-- The header checks of an existing log. -/
def checkHeader (file : List UInt8) (report : RecoveryReport) : Except Opening Unit := do
  let header := file.take kHeaderBytes
  let format := UInt32.ofNat (load 4 header 8)
  refuseIf (file.length < kHeaderBytes)
    (badHeader file { report with issue := .badHeader, detail := "store is shorter than its header" }
      .truncatedStore ("store is " ++ toString file.length ++ " bytes, shorter than the " ++
        toString kHeaderBytes ++ " byte header"))
  refuseIf (header.take 8 != kStoreMagic)
    (badHeader file { report with issue := .badHeader, detail := "store magic does not match" }
      .corruptStore "store magic does not match; this is not a cable registry store")
  refuseIf (load 4 header 20 != (crc32c (header.take 20)).toNat)
    (badHeader file
      { report with issue := .badHeader, detail := "store header checksum does not match" }
      .corruptStore "store header checksum does not match")
  refuseIf (format != kStoreFormatVersion)
    (let detail := "store format version " ++ toString format.toNat ++ " is not supported"
     badHeader file
      { report with formatVersion := format, issue := .unsupportedVersion, detail := detail }
      .unsupportedVersion detail)
  refuseIf (load 4 header 16 != kHeaderBytes)
    (let detail := "store header length does not match the format"
     badHeader file
      { report with formatVersion := format, issue := .badHeader, detail := detail }
      .corruptStore detail)

/-- The store of a log whose validated part ends at `offset`. -/
def ofScan (options : StoreOptions) (file : List UInt8)
    (scan : LogFormat.Scan LogPosition StoreRecord ScanStop) : Store where
  options := options
  file := file
  writeOffset := kHeaderBytes + scan.size
  validEnd := kHeaderBytes + scan.size
  nextSequence := scan.state.sequence
  chain := scan.state.chain
  bytesOnDisk := kHeaderBytes + scan.size
  recordsLoaded := scan.records.length

/-- Adds the note on a log that is over its byte budget, which still opens. -/
def noteBudget (options : StoreOptions) (offset : Nat) (report : RecoveryReport) : RecoveryReport :=
  if offset > options.maxLogBytes.toNat then
    { report with detail := report.detail ++ "; log is over the configured byte budget" }
  else report

/-- The recovery decision after the scan. -/
def recover (options : StoreOptions) (file : List UInt8) (report : RecoveryReport)
    (scan : LogFormat.Scan LogPosition StoreRecord ScanStop) : Opening :=
  let offset := kHeaderBytes + scan.size
  let report := { report with
    recordsLoaded := scan.records.length
    bytesLoaded := offset
    bytesDiscarded := file.length - offset }
  match scan.stop with
  | none =>
    let report := { report with
      issue := .cleanOpen, detail := "opened cleanly", bytesDiscarded := 0, chainIntact := true }
    ⟨noteBudget options offset report, some file, .ok (ofScan options file scan)⟩
  | some stop =>
    let recoverable := stop.tailIncomplete || options.recoveryPolicy == .salvagePrefix
    let report := { report with
      issue := stop.issue, detail := stop.detail, issueOffset := offset, recordsRejected := 1,
      chainIntact := false }
    if !recoverable then
      ⟨{ report with opened := false }, some file, makeError .corruptStore
        ("store is damaged at offset " ++ toString offset ++ ": " ++ stop.detail)⟩
    else
      let truncated := file.take offset
      ⟨noteBudget options offset { report with salvaged := true }, some truncated,
        .ok (ofScan options truncated scan)⟩

/-- The log after its header, scanned from the first record on. -/
def scanFile (options : StoreOptions) (file : List UInt8) :
    LogFormat.Scan LogPosition StoreRecord ScanStop :=
  (storeFormat options.maxRecordBytes).scan logStart (file.drop kHeaderBytes)

/-- Opens, validates and, when allowed, repairs the log. -/
def «open» (options : StoreOptions) (disk : Option (List UInt8)) : Opening :=
  let report : RecoveryReport := { formatVersion := kStoreFormatVersion }
  let refused (message : String) : Opening := ⟨report, disk, makeError .invalidArgument message⟩
  if options.path.isEmpty then refused "the store path is empty"
  else if options.maxRecordBytes.toNat < kMinRecordBytes then
    refused ("store max_record_bytes must be at least " ++ toString kMinRecordBytes)
  else if options.maxLogBytes.toNat < 4 * kHeaderBytes then
    refused "store max_log_bytes is implausibly small"
  else
    let report := { report with opened := true, chainIntact := true }
    match disk.getD [] with
    | [] =>
      ⟨{ report with
          created := true, issue := .created, detail := "created a new store",
          bytesLoaded := kHeaderBytes },
        some storeHeader, .ok (ofScan options storeHeader ⟨[], logStart, 0, none⟩)⟩
    | byte :: bytes =>
      let file := byte :: bytes
      match checkHeader file report with
      | .error refusal => refusal
      | .ok () => recover options file report (scanFile options file)

/-! ### Appending -/

/-- What the operating system makes of an append. -/
inductive AppendIo where
  | written
  /-- The write fails after a prefix of the frame. -/
  | torn (written : Nat) (message : String)
  /-- Everything is written and the flush fails. -/
  | notSynced (message : String)
  deriving Repr, DecidableEq

/-- Writes at an offset; a gap before it is filled with zeros. -/
def writeAt (file : List UInt8) (offset : Nat) (data : List UInt8) : List UInt8 :=
  file.take offset ++ List.replicate (offset - file.length) 0 ++ data ++
    file.drop (offset + data.length)

/-- The store after an acknowledged record. -/
def advance (store : Store) (record : StoreRecord) : Store :=
  let frame := recordFrame store.position record
  let offset := store.writeOffset + frame.length
  { store with
    file := writeAt store.file store.writeOffset frame
    writeOffset := offset
    validEnd := offset
    nextSequence := store.nextSequence + 1
    bytesOnDisk := offset
    recordsWritten := store.recordsWritten + 1
    recordsSinceRewrite := store.recordsSinceRewrite + 1
    chain := recordChain store.position record }

/-- Appends one record and, when configured, makes it durable before returning. -/
def append (store : Store) (record : StoreRecord) (io : AppendIo) : Store × Outcome Unit :=
  if store.closed then (store, makeError .closed "the store is closed")
  else if !store.replayed then
    (store, makeError .internal "the store must be replayed before it is appended to")
  else if !validRecordKind record.kind then
    (store, makeError .invalidArgument "record kind is not understood")
  else if record.payload.length > store.options.maxRecordBytes.toNat then
    (store, makeError .capacityExceeded
      ("record of " ++ toString record.payload.length ++ " bytes exceeds the " ++
        toString store.options.maxRecordBytes.toNat ++ " byte limit"))
  else if record.payload.length + kMinRecordBytes ≥ 2 ^ 64 then
    (store, makeError .capacityExceeded "record length overflows")
  else if !store.handleOpen then
    (store, makeError .persistenceFailure "write on a closed file")
  else
    let frame := recordFrame store.position record
    match io with
    | .torn written message =>
      ({ store with file := writeAt store.file store.writeOffset (frame.take written) },
        makeError .persistenceFailure message)
    | .notSynced message =>
      if store.options.fsyncOnCommit then
        ({ store with file := writeAt store.file store.writeOffset frame },
          makeError .persistenceFailure message)
      else (store.advance record, .ok ())
    | .written => (store.advance record, .ok ())

/-! ### Replaying -/

/-- Calls the visitor on every record from an offset to the end of the validated part.
The visitor returns false to stop. -/
def visitFuel {σ : Type} (store : Store) (visit : σ → StoreRecord → σ × Bool) :
    Nat → Nat → σ → Outcome σ
  | 0, _, s => .ok s
  | fuel + 1, offset, s =>
    if offset < store.validEnd then
      let rest := store.file.drop offset
      let frameBytes := load 4 rest 0
      let payloadBytes := load 4 rest 16
      if rest.length < kRecordHeaderBytes then
        makeError .truncatedStore "validated record header disappeared during replay"
      else if rest.length < frameBytes + 4 then
        makeError .truncatedStore "validated record disappeared during replay"
      else
        let payload := ((rest.take (frameBytes + 4)).drop kRecordHeaderBytes).take payloadBytes
        let (s, more) := visit s ⟨⟨UInt16.ofNat (load 2 rest 4)⟩, payload⟩
        if more then visitFuel store visit fuel (offset + (frameBytes + 4)) s else .ok s
    else .ok s

/-- Replays the records that survived validation. -/
def visitRecords {σ : Type} (store : Store) (visit : σ → StoreRecord → σ × Bool) (s : σ) :
    Outcome (Store × σ) := do
  if store.closed then makeError .closed "the store is closed"
  else if store.replayed then makeError .internal "the store has already been replayed"
  else
    let s ← store.visitFuel visit store.file.length kHeaderBytes s
    pure ({ store with replayed := true }, s)

/-! ### Rewriting -/

/-- What the operating system makes of a rewrite. -/
inductive RewriteIo where
  | done
  /-- The temporary file could not be written. -/
  | failed (error : Error)
  /-- The rename failed; the old log is opened again, or that fails too. -/
  | notReplaced (restored : Bool) (error : Error)
  /-- The log was replaced and could not be opened again. -/
  | notReopened (error : Error)
  deriving Repr, DecidableEq

def checkRewrite (options : StoreOptions) (record : StoreRecord) : Outcome Unit := do
  refuseIf (!validRecordKind record.kind)
    ⟨.invalidArgument, "rewrite record kind is not understood"⟩
  refuseIf (record.payload.length > options.maxRecordBytes.toNat)
    ⟨.capacityExceeded, "rewrite record exceeds the configured record limit"⟩
  refuseIf (record.payload.length + kMinRecordBytes ≥ 2 ^ 64)
    ⟨.capacityExceeded, "rewrite record length overflows"⟩

/-- The log of a list of records. -/
def rewritten (options : StoreOptions) (records : List StoreRecord) : List UInt8 :=
  storeHeader ++ (storeFormat options.maxRecordBytes).encode logStart records

/-- Replaces the log, written to a temporary sibling and renamed over it. -/
def rewrite (store : Store) (records : List StoreRecord) (io : RewriteIo) : Store × Outcome Unit :=
  if store.closed then (store, makeError .closed "the store is closed")
  else if !store.replayed then
    (store, makeError .internal "the store must be replayed before it is rewritten")
  else match io, records.forM (checkRewrite store.options) with
    | .failed error, _ => (store, .error error)
    | _, .error error => (store, .error error)
    | .notReplaced restored error, _ => ({ store with handleOpen := restored }, .error error)
    | .notReopened error, _ =>
      ({ store with file := rewritten store.options records, handleOpen := false }, .error error)
    | .done, _ =>
      let file := rewritten store.options records
      let position := (storeFormat store.options.maxRecordBytes).after logStart records
      ({ store with
          file := file
          handleOpen := true
          writeOffset := file.length
          validEnd := file.length
          nextSequence := position.sequence
          chain := position.chain
          bytesOnDisk := file.length
          recordsWritten := 0
          recordsLoaded := records.length
          recordsSinceRewrite := 0
          rewriteCount := store.rewriteCount + 1 }, .ok ())

/-- Flushes and releases the file. -/
def close (store : Store) : Store :=
  if store.closed then store else { store with closed := true, handleOpen := false }

theorem options_append (store : Store) (record : StoreRecord) (io : AppendIo) :
    (store.append record io).1.options = store.options := by
  unfold append
  repeat' split
  all_goals rfl

theorem options_rewrite (store : Store) (records : List StoreRecord) (io : RewriteIo) :
    (store.rewrite records io).1.options = store.options := by
  unfold rewrite
  repeat' split
  all_goals rfl

end Store

end CableRegistry
