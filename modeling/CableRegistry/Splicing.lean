import CableRegistry.StoreRuns

/-!
# Frames of several logs

The chain digest of a frame is the hash of the one before it and of the record.  So far as
SHA-256 has no collision on what is hashed, a chain value tells the whole list of records before
it (`chain_injective`), and a frame that fits behind some records can only be one that was
written behind the very same records.

* `open_spliced`: a file put together from frames of several logs opens with the first records
  of a single one of them.
-/

namespace CableRegistry

variable {inputs : List (List UInt8)} {records : List StoreRecord}
  {position position' : LogPosition} {record record' : StoreRecord}

namespace Store

/-! ### What is hashed -/

/-- The position after a list of records. -/
def positionOf (records : List StoreRecord) : LogPosition := records.foldl nextPosition logStart

theorem positionOf_concat (records : List StoreRecord) (record : StoreRecord) :
    positionOf (records ++ [record]) = nextPosition (positionOf records) record := by
  rw [positionOf, List.foldl_append]
  rfl

/-- What the chain digest of a record is the hash of. -/
def chainInput (position : LogPosition) (record : StoreRecord) : List UInt8 :=
  position.chain.toList ++ (headerFromKind position.sequence record ++ record.payload)

theorem recordChain_eq (position : LogPosition) (record : StoreRecord) :
    recordChain position record = sha256 (chainInput position record) := by
  have hnil : ({} : Sha256).buffer.length < 64 := by decide
  unfold recordChain chainStep sha256 chainInput
  rw [Sha256.update_update rfl hnil, Sha256.update_update rfl hnil, List.append_assoc]

/-- The inputs of the chain digests of some records, from a position on. -/
def chainInputs : LogPosition → List StoreRecord → List (List UInt8)
  | _, [] => []
  | position, record :: records =>
    chainInput position record :: chainInputs (nextPosition position record) records

theorem chainInputs_append (position : LogPosition) (records more : List StoreRecord) :
    chainInputs position (records ++ more) =
      chainInputs position records ++ chainInputs (records.foldl nextPosition position) more := by
  induction records generalizing position with
  | nil => rfl
  | cons record records ih =>
    simp only [List.cons_append, chainInputs, ih, List.foldl_cons]

/-- SHA-256 tells the inputs apart. -/
def NoCollision (inputs : List (List UInt8)) : Prop :=
  ∀ x ∈ inputs, ∀ y ∈ inputs, sha256 x = sha256 y → x = y

instance (inputs : List (List UInt8)) : Decidable (NoCollision inputs) :=
  inferInstanceAs (Decidable (∀ x ∈ inputs, ∀ y ∈ inputs, sha256 x = sha256 y → x = y))

/-! ### What is hashed is decodable -/

theorem kind_of_headerFromKind {sequence sequence' : UInt64}
    (h : headerFromKind sequence record = headerFromKind sequence' record') :
    record.kind = record'.kind := by
  simp only [headerFromKind, List.append_assoc] at h
  have hkind := (List.append_inj h (by simp)).1
  have hraw : record.kind.raw.toNat = record'.kind.raw.toNat := by
    rw [← leValue_leBytes (w := 2) record.kind.raw.toNat_lt, hkind,
      leValue_leBytes record'.kind.raw.toNat_lt]
  exact congrArg RecordKind.mk (UInt16.toNat_inj.mp hraw)

/-- The input of a chain digest tells the chain before it and the record. -/
theorem chainInput_injective (h : chainInput position record = chainInput position' record') :
    position.chain = position'.chain ∧ record = record' := by
  obtain ⟨hchain, hrest⟩ := List.append_inj h (by simp)
  obtain ⟨hheader, hpayload⟩ := List.append_inj hrest (by simp [length_headerFromKind])
  refine ⟨Vector.toList_inj.mp hchain, ?_⟩
  cases record
  cases record'
  exact congrArg₂ StoreRecord.mk (kind_of_headerFromKind hheader) hpayload

theorem chainInput_ne_nil (position : LogPosition) (record : StoreRecord) :
    chainInput position record ≠ [] := by
  intro h
  have hlen := congrArg List.length h
  simp [chainInput, length_headerFromKind] at hlen

theorem chain_concat (records : List StoreRecord) (record : StoreRecord) :
    (positionOf (records ++ [record])).chain = sha256 (chainInput (positionOf records) record) := by
  rw [positionOf_concat, nextPosition, recordChain_eq]

/-- What is hashed up to a record, and for it, is part of what is hashed for the log. -/
theorem chainInputs_subset {before : List StoreRecord} {after : List StoreRecord}
    (h : chainInputs logStart (before ++ record :: after) ⊆ inputs) :
    chainInputs logStart before ⊆ inputs ∧ chainInput (positionOf before) record ∈ inputs := by
  rw [chainInputs_append, chainInputs] at h
  exact ⟨fun x hx => h (List.mem_append_left _ hx), h (List.mem_append_right _ List.mem_cons_self)⟩

/-- **A chain value tells the records before it.** -/
theorem chain_injective (h : NoCollision inputs) (hnil : [] ∈ inputs) {records' : List StoreRecord}
    (hin : chainInputs logStart records ⊆ inputs) (hin' : chainInputs logStart records' ⊆ inputs)
    (hchain : (positionOf records).chain = (positionOf records').chain) : records = records' := by
  have hstart : (positionOf []).chain = sha256 [] := rfl
  induction records using List.reverseRecOn generalizing records' with
  | nil =>
    rcases List.eq_nil_or_concat' records' with rfl | ⟨front', record', rfl⟩
    · rfl
    · rw [hstart, chain_concat] at hchain
      exact absurd (h _ hnil _ (chainInputs_subset hin').2 hchain).symm (chainInput_ne_nil _ _)
  | append_singleton front record ih =>
    obtain ⟨hfin, hrin⟩ := chainInputs_subset hin
    rcases List.eq_nil_or_concat' records' with rfl | ⟨front', record', rfl⟩
    · rw [hstart, chain_concat] at hchain
      exact absurd (h _ hrin _ hnil hchain) (chainInput_ne_nil _ _)
    · obtain ⟨hfin', hrin'⟩ := chainInputs_subset hin'
      rw [chain_concat, chain_concat] at hchain
      obtain ⟨hbefore, rfl⟩ := chainInput_injective (h _ hrin _ hrin' hchain)
      rw [ih hfin hfin' hbefore]

/-! ### Frames -/

/-- Frames at the front of the same bytes are the same frame. -/
theorem recordFrame_append_inj {tail tail' : List UInt8}
    (hlen : record.payload.length + 56 < 2 ^ 32) (hlen' : record'.payload.length + 56 < 2 ^ 32)
    (h : recordFrame position record ++ tail = recordFrame position' record' ++ tail') :
    recordFrame position record = recordFrame position' record' ∧ tail = tail' := by
  have hload := load_frame_length position record tail hlen
  rw [h, load_frame_length position' record' tail' hlen'] at hload
  refine List.append_inj h ?_
  rw [length_recordFrame, length_recordFrame]
  omega

/-- A frame tells its record and its chain digest. -/
theorem recordFrame_injective (hlen : record.payload.length + 56 < 2 ^ 32)
    (hlen' : record'.payload.length + 56 < 2 ^ 32)
    (h : recordFrame position record = recordFrame position' record') :
    record = record' ∧ recordChain position record = recordChain position' record' := by
  have hsize : record.payload.length = record'.payload.length := by
    have hlength := congrArg List.length h
    rw [length_recordFrame, length_recordFrame] at hlength
    omega
  have hkind : record.kind = record'.kind := by
    have hheader : headerFromKind position.sequence record =
        headerFromKind position'.sequence record' := by
      rw [← slice_frame_header position record, h, slice_frame_header]
    exact kind_of_headerFromKind hheader
  have hpayload : record.payload = record'.payload := by
    rw [← slice_frame_payload position record, h, hsize, slice_frame_payload]
  have hchain : recordChain position record = recordChain position' record' := by
    refine Vector.toList_inj.mp ?_
    rw [← slice_frame_chain position record, h, hsize, slice_frame_chain]
  cases record
  cases record'
  exact ⟨congrArg₂ StoreRecord.mk hkind hpayload, hchain⟩

/-- The frame is one of the frames of the log. -/
def FrameOf (log : List StoreRecord) (frame : List UInt8) : Prop :=
  ∃ before record after, log = before ++ record :: after ∧
    frame = recordFrame (positionOf before) record

/-- Where records are read from the front of some frames, the last of them comes with one of
these frames. -/
theorem last_frame_mem {maxRecordBytes : UInt64} {pieces : List (List UInt8)}
    (hpieces : ∀ piece ∈ pieces, ∃ position record, record.payload.length + 56 < 2 ^ 32 ∧
      piece = recordFrame position record)
    {records : List StoreRecord} {record : StoreRecord} {position : LogPosition} {rest : List UInt8}
    (hlen : ∀ r ∈ records ++ [record], r.payload.length + 56 < 2 ^ 32)
    (h : (storeFormat maxRecordBytes).encode position (records ++ [record]) ++ rest = pieces.flatten) :
    recordFrame (records.foldl nextPosition position) record ∈ pieces := by
  -- the first frame read is the first piece
  have hfirst : ∀ {first : StoreRecord} {pieces : List (List UInt8)} {position : LogPosition}
      {tail : List UInt8}, first.payload.length + 56 < 2 ^ 32 →
      (∀ piece ∈ pieces, ∃ position record, record.payload.length + 56 < 2 ^ 32 ∧
        piece = recordFrame position record) →
      recordFrame position first ++ tail = pieces.flatten →
      ∃ others, pieces = recordFrame position first :: others ∧ tail = others.flatten := by
    intro first pieces position tail hlen hpieces h
    cases pieces with
    | nil =>
      have hlength := congrArg List.length h
      rw [List.length_append, length_recordFrame] at hlength
      simp at hlength
    | cons piece others =>
      obtain ⟨position', record', hlen', rfl⟩ := hpieces piece List.mem_cons_self
      rw [List.flatten_cons] at h
      obtain ⟨hframe, htail⟩ := recordFrame_append_inj hlen hlen' h
      exact ⟨others, by rw [hframe], htail⟩
  induction records generalizing position pieces with
  | nil =>
    rw [List.nil_append, LogFormat.encode, List.append_assoc] at h
    obtain ⟨others, rfl, -⟩ := hfirst (hlen record (by simp)) hpieces h
    exact List.mem_cons_self
  | cons first records ih =>
    rw [List.cons_append, LogFormat.encode, List.append_assoc] at h
    rw [List.cons_append, List.forall_mem_cons] at hlen
    obtain ⟨others, rfl, hrest⟩ := hfirst hlen.1 hpieces h
    rw [List.forall_mem_cons] at hpieces
    have hmem := ih hpieces.2 hlen.2 hrest
    rw [List.foldl_cons]
    exact List.mem_cons_of_mem _ hmem

/-- **Spliced logs are detected.**  A file is a valid header and whole frames of some logs, in
any order and number.  Opened under the salvage policy, it yields the first records of a single
one of these logs, so far as SHA-256 has no collision on what was hashed for the logs and for
the records found. -/
theorem open_spliced {logs : List (List StoreRecord)} (hlogs : logs ≠ [])
    (hwritten : ∀ log ∈ logs, Written log) {header : List UInt8} (hh : HeaderOk header)
    {pieces : List (List UInt8)} (hpieces : ∀ piece ∈ pieces, ∃ log ∈ logs, FrameOf log piece)
    {options : StoreOptions} (ho : Usable options) (hpolicy : options.recoveryPolicy = .salvagePrefix)
    (hsha : NoCollision ([] :: (logs ++ [(scanFile options (header ++ pieces.flatten)).records]).flatMap
      (chainInputs logStart))) :
    ∃ opened replayed found, (Store.open options (some (header ++ pieces.flatten))).outcome = .ok opened ∧
      opened.visitRecords collect [] = .ok (replayed, found) ∧
      found = (scanFile options (header ++ pieces.flatten)).records ∧ ∃ log ∈ logs, found <+: log := by
  obtain ⟨report, -, hopen⟩ := open_existing ho hh pieces.flatten
  obtain ⟨hgood, -, hparts, hend⟩ := scanFile_parts options (header ++ pieces.flatten)
  obtain ⟨-, report', -, -, -, hrecover⟩ := (recover_cases options (header ++ pieces.flatten) report _
    hend).resolve_right fun hrefused => hrefused.1 fun _ _ => .inr hpolicy
  have hopened := congrArg Opening.outcome (hopen.trans hrecover)
  obtain ⟨hholds, hoptions, hclosed, -, hunread, -⟩ := holds_of_recover ho hh (hopen ▸ hopened)
  generalize scanFile options (header ++ pieces.flatten) = scan at *
  refine ⟨_, _, scan.records, hopened, hholds.collects hclosed hunread, rfl, ?_⟩
  rcases List.eq_nil_or_concat' scan.records with hnone | ⟨front, record, hlast⟩
  · obtain ⟨log, hlog⟩ := List.exists_mem_of_ne_nil logs hlogs
    exact ⟨log, hlog, hnone ▸ List.nil_prefix⟩
  -- the frame of the last record found was written behind the same records in some log
  have hlen : ∀ r ∈ front ++ [record], r.payload.length + 56 < 2 ^ 32 := fun r hr =>
    (hgood r (hlast ▸ hr)).length
  have hflat : (storeFormat options.maxRecordBytes).encode logStart (front ++ [record]) ++
      (header ++ pieces.flatten).drop (kHeaderBytes + scan.size) = pieces.flatten := by
    rw [← hh.length, List.take_left, List.append_assoc] at hparts
    rw [← hh.length, ← hlast]
    exact (List.append_cancel_left hparts).symm
  have hmem := last_frame_mem (fun piece hpiece => ?_) hlen hflat
  · obtain ⟨log, hlog, before, record', after, rfl, hframe⟩ := hpieces _ hmem
    have hlen' := (hwritten _ hlog).length_lt record' (by simp)
    obtain ⟨rfl, hchain⟩ := recordFrame_injective (hlen record (by simp)) hlen' hframe
    have hall : ∀ records ∈ logs ++ [scan.records], chainInputs logStart records ⊆
        [] :: (logs ++ [scan.records]).flatMap (chainInputs logStart) := fun records hrecords x hx =>
      List.mem_cons_of_mem _ (List.mem_flatMap.mpr ⟨records, hrecords, hx⟩)
    have hfound := hall scan.records (by simp)
    rw [hlast] at hfound hsha
    obtain ⟨hfin, hrin⟩ := chainInputs_subset hfound
    obtain ⟨hbin, hrin'⟩ := chainInputs_subset (hlast ▸ hall _ (List.mem_append_left _ hlog))
    have hinput : chainInput (positionOf front) record = chainInput (positionOf before) record := by
      refine hsha _ hrin _ hrin' ?_
      rw [← recordChain_eq, ← recordChain_eq]
      exact hchain
    have heq := chain_injective hsha List.mem_cons_self hfin hbin (chainInput_injective hinput).1
    refine ⟨_, hlog, after, ?_⟩
    rw [hlast, heq, List.append_assoc]
    rfl
  · obtain ⟨log, hlog, before, record', after, rfl, hframe⟩ := hpieces piece hpiece
    exact ⟨_, record', (hwritten _ hlog).length_lt record' (by simp), hframe⟩

/-- The frame of a first record without payload. -/
def sampleFrame : List UInt8 := recordFrame logStart sampleRecord

def salvageOptions : StoreOptions := { sampleOptions with recoveryPolicy := .salvagePrefix }

theorem written_sampleRecord : Written [sampleRecord] := by
  refine ⟨sampleOptions, _, sampleStore, _, 0, [.append sampleRecord .written], open_sampleOptions,
    replay_sampleOptions, Nat.zero_le _, Nat.zero_le _, ?_, rfl, rfl⟩
  simp [Call.Within, sampleRecord]

/-- The second copy of the frame has the wrong sequence number. -/
theorem scanFile_sampleFrame :
    (scanFile salvageOptions (storeHeader ++ [sampleFrame, sampleFrame].flatten)).records =
      [sampleRecord] := by
  have hfits : ∀ r ∈ [sampleRecord], FitsFrame salvageOptions.maxRecordBytes r := fun r hr =>
    List.mem_singleton.mp hr ▸ fitsFrame_sampleRecord
  have hstop : ((storeFormat salvageOptions.maxRecordBytes).scan
      (positionAfter salvageOptions [sampleRecord]) sampleFrame).records = [] := by
    decide +kernel
  have hfile : storeHeader ++ [sampleFrame, sampleFrame].flatten =
      storeHeader ++ frames salvageOptions [sampleRecord] ++ sampleFrame := by
    rw [frames, LogFormat.encode, LogFormat.encode]
    simp only [List.flatten_cons, List.flatten_nil, List.append_nil, List.append_assoc]
    rfl
  rw [hfile, scanFile_log sampleFrame headerOk_storeHeader.length hfits, hstop, List.append_nil]

theorem open_spliced_sample :
    ∃ opened replayed found,
      (Store.open salvageOptions (some (storeHeader ++ [sampleFrame, sampleFrame].flatten))).outcome =
        .ok opened ∧
      opened.visitRecords collect [] = .ok (replayed, found) ∧ found <+: [sampleRecord] := by
  have husable : Usable salvageOptions := usable_sampleOptions.withPolicy _
  have hpieces : ∀ piece ∈ [sampleFrame, sampleFrame], ∃ log ∈ [[sampleRecord]], FrameOf log piece := by
    intro piece hpiece
    obtain rfl : piece = sampleFrame := by simpa using hpiece
    exact ⟨[sampleRecord], List.mem_singleton_self _, [], sampleRecord, [], rfl, rfl⟩
  have hsha : NoCollision ([] :: ([[sampleRecord]] ++
      [(scanFile salvageOptions (storeHeader ++ [sampleFrame, sampleFrame].flatten)).records]).flatMap
        (chainInputs logStart)) := by
    rw [scanFile_sampleFrame]
    decide +kernel
  obtain ⟨opened, replayed, found, hopen, hvisit, -, log, hlog, hprefix⟩ :=
    open_spliced (by simp) (by simpa using written_sampleRecord) headerOk_storeHeader hpieces husable rfl
      hsha
  rw [List.mem_singleton.mp hlog] at hprefix
  exact ⟨opened, replayed, found, hopen, hvisit, hprefix⟩

end Store

end CableRegistry
