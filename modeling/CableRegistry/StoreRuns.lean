import CableRegistry.Codec
import CableRegistry.Faults

/-!
# Runs of a store

A store is opened, appended to, rewritten, closed and opened again.  `Store.calls` carries out
such a run and `contents` says which records it leaves: those of the last rewrite and what was
appended since.

* `calls_reopens`: after every run of successful calls the log opens cleanly, at the offset,
  sequence and chain that the writer held, and holds exactly these records.
* `open_cut`: a log that is cut short at any length opens with the records that lie wholly
  inside the cut, and goes on from there.
-/

namespace CableRegistry

variable {records : List StoreRecord} {header : List UInt8} {store' : Store}
  {options : StoreOptions} {record : StoreRecord}

namespace Store

/-! ### Calls -/

/-- A call on a store.  A store that is opened again is closed before and replayed after. -/
inductive Call where
  | append (record : StoreRecord) (io : AppendIo)
  | rewrite (records : List StoreRecord) (io : RewriteIo)
  | reopen (options : StoreOptions)

/-- A call that succeeds. -/
def call (store : Store) : Call → Outcome Store
  | .append record io =>
    match store.append record io with
    | (store, .ok ()) => .ok store
    | (_, .error error) => .error error
  | .rewrite records io =>
    match store.rewrite records io with
    | (store, .ok ()) => .ok store
    | (_, .error error) => .error error
  | .reopen options => do
    let opened ← (Store.open options (some store.close.file)).outcome
    let (replayed, _) ← opened.visitRecords collect []
    pure replayed

/-- A run of calls that all succeed. -/
def calls (store : Store) (cs : List Call) : Outcome Store := cs.foldlM call store

/-- The records after a call. -/
def content (records : List StoreRecord) : Call → List StoreRecord
  | .append record _ => records ++ [record]
  | .rewrite records _ => records
  | .reopen _ => records

/-- The records of the last rewrite and those appended since. -/
def contents (records : List StoreRecord) (cs : List Call) : List StoreRecord := cs.foldl content records

/-- The payloads of a call are within the bound, and so is what a store that is opened
accepts. -/
def Call.Within (bound : Nat) : Call → Prop
  | .append record _ => record.payload.length ≤ bound
  | .rewrite records _ => ∀ record ∈ records, record.payload.length ≤ bound
  | .reopen options => bound ≤ options.maxRecordBytes.toNat

/-! ### What a store holds -/

section Positions

variable (options options' : StoreOptions)

theorem frames_options (records : List StoreRecord) : frames options records = frames options' records := by
  unfold frames
  generalize logStart = position
  induction records generalizing position with
  | nil => rfl
  | cons record records ih =>
    rw [LogFormat.encode, LogFormat.encode]
    exact congrArg (recordFrame position record ++ ·) (ih _)

theorem positionAfter_options (records : List StoreRecord) :
    positionAfter options records = positionAfter options' records := rfl

end Positions

/-- The store is in use and its log holds the records, which all are within the bound, and nothing
else. -/
structure Keeps (store : Store) (bound : Nat) (records : List StoreRecord) : Prop where
  holds : ∃ header, store.Holds header records []
  bounded : bound ≤ store.options.maxRecordBytes.toNat
  within : ∀ record ∈ records, record.payload.length ≤ bound
  closed : store.closed = false
  replayed : store.replayed = true

/-- The log of the store opens cleanly, where the store stands, and holds the records. -/
def Reopens (store : Store) (bound : Nat) (records : List StoreRecord) : Prop :=
  ∀ options, Usable options → bound ≤ options.maxRecordBytes.toNat →
    (Store.open options (some store.file)).report.issue = .cleanOpen ∧
    (Store.open options (some store.file)).disk = some store.file ∧
    ∃ opened replayed, (Store.open options (some store.file)).outcome = .ok opened ∧
      opened.writeOffset = store.writeOffset ∧ opened.nextSequence = store.nextSequence ∧
      opened.chain = store.chain ∧ opened.visitRecords collect [] = .ok (replayed, records)

section Keeps

variable {store : Store} {bound : Nat} {records : List StoreRecord}

theorem length_lt_of_within (hbound : bound ≤ Encoder.kMaxEncodedBytes)
    (hwithin : record.payload.length ≤ bound) : record.payload.length + 56 < 2 ^ 32 := by
  simp only [Encoder.kMaxEncodedBytes] at hbound
  omega

theorem fits_within (hbound : bound ≤ Encoder.kMaxEncodedBytes)
    (hkind : validRecordKind record.kind = true) (hwithin : record.payload.length ≤ bound)
    (hoptions : bound ≤ options.maxRecordBytes.toNat) :
    FitsFrame options.maxRecordBytes record :=
  ⟨hkind, Nat.le_trans hwithin hoptions, length_lt_of_within hbound hwithin⟩

/-- A log that a store keeps opens under other options as well. -/
theorem Keeps.opening (h : store.Keeps bound records) (hbound : bound ≤ Encoder.kMaxEncodedBytes)
    (ho : Usable options) (hoptions : bound ≤ options.maxRecordBytes.toNat) :
    ∃ (report : RecoveryReport) (header : List UInt8) (opened : Store), report.issue = .cleanOpen ∧
      Store.open options (some store.file) = ⟨report, some store.file, .ok opened⟩ ∧
      opened.Holds header records [] ∧ opened.options = options ∧ opened.file = store.file ∧
      opened.closed = false ∧ opened.replayed = false ∧ opened.handleOpen = true ∧
      opened.writeOffset = store.writeOffset ∧ opened.position = store.position := by
  obtain ⟨header, hholds⟩ := h.holds
  have hfits : ∀ r ∈ records, FitsFrame options.maxRecordBytes r := fun r hr =>
    fits_within hbound (hholds.fits r hr).kind (h.within r hr) hoptions
  have hfile : store.file = header ++ frames options records := by
    rw [hholds.file, List.append_nil, frames_options store.options options]
  obtain ⟨report, ⟨-, hissue, -⟩, hopen⟩ := open_log ho hholds.headerOk hfits
  rw [hfile, hopen]
  refine ⟨report, header, _, hissue, rfl, holds_ofScan ho hholds.headerOk hfits none, rfl, rfl, rfl, rfl,
    rfl, ?_, ?_⟩
  · rw [hholds.writeOffset, frames_options store.options options]
    rfl
  · rw [hholds.position]
    rfl

theorem Keeps.reopens (h : store.Keeps bound records) (hbound : bound ≤ Encoder.kMaxEncodedBytes) :
    store.Reopens bound records := by
  intro options ho hoptions
  obtain ⟨report, header, opened, hissue, hopen, hholds, -, -, hclosed, hreplayed, -, hoffset,
    hposition⟩ := h.opening hbound ho hoptions
  rw [hopen]
  exact ⟨hissue, rfl, opened, _, rfl, hoffset, congrArg LogPosition.sequence hposition,
    congrArg LogPosition.chain hposition, hholds.collects hclosed hreplayed⟩

/-! ### A run -/

theorem Keeps.append (h : store.Keeps bound records) (hbound : bound ≤ Encoder.kMaxEncodedBytes)
    {io : AppendIo} (hwithin : record.payload.length ≤ bound)
    (hcall : store.call (.append record io) = .ok store') :
    store'.Keeps bound (records ++ [record]) := by
  obtain ⟨header, hholds⟩ := h.holds
  simp only [Store.call] at hcall
  rcases append_cases store (length_lt_of_within hbound hwithin) io with
    ⟨hfit, -, happ⟩ | ⟨error, happ⟩ | ⟨-, -, error, happ⟩
  · rw [happ] at hcall
    obtain rfl := Except.ok.inj hcall
    exact ⟨⟨header, by simpa using hholds.advance hfit⟩, h.bounded,
      List.forall_mem_append.mpr ⟨h.within, List.forall_mem_singleton.mpr hwithin⟩, h.closed, h.replayed⟩
  · rw [happ] at hcall
    exact absurd hcall (by simp)
  · rw [happ] at hcall
    exact absurd hcall (by simp)

section

variable (h : store.Keeps bound records) (hbound : bound ≤ Encoder.kMaxEncodedBytes)

include h hbound

theorem Keeps.rewrite {records' : List StoreRecord} {io : RewriteIo} {store' : Store}
    (hwithin : ∀ record ∈ records', record.payload.length ≤ bound)
    (hcall : store.call (.rewrite records' io) = .ok store') : store'.Keeps bound records' := by
  obtain ⟨header, hholds⟩ := h.holds
  simp only [Store.call] at hcall
  rcases rewrite_cases store records' io with ⟨handleOpen, error, heq⟩ |
    ⟨-, ⟨error, -, heq⟩ | ⟨rewritten, heq, -, hoptions, hclosed, hreplayed, hholds'⟩⟩
  · rw [heq] at hcall
    exact absurd hcall (by simp)
  · rw [heq] at hcall
    exact absurd hcall (by simp)
  · rw [heq] at hcall
    obtain rfl := Except.ok.inj hcall
    exact ⟨⟨storeHeader, hholds' hholds.usable fun r hr => length_lt_of_within hbound (hwithin r hr)⟩,
      hoptions ▸ h.bounded, hwithin, hclosed, hreplayed⟩

theorem Keeps.reopen (hoptions : bound ≤ options.maxRecordBytes.toNat)
    (hcall : store.call (.reopen options) = .ok store') : store'.Keeps bound records := by
  have hfile : store.close.file = store.file := by
    unfold close
    split <;> rfl
  simp only [Store.call] at hcall
  rw [hfile] at hcall
  cases hopened : (Store.open options (some store.file)).outcome with
  | error error =>
    rw [hopened] at hcall
    exact absurd hcall (by simp [bind, Except.bind])
  | ok opened =>
    obtain ⟨ho, -⟩ := usable_of_open hopened
    obtain ⟨report, header, opened', -, hopen, hholds, hopts, -, hclosed, hreplayed, -, -, -⟩ :=
      h.opening hbound ho hoptions
    rw [hopen] at hcall
    simp only [bind, Except.bind, hholds.collects hclosed hreplayed] at hcall
    obtain rfl := Except.ok.inj hcall
    exact ⟨⟨header, hholds.flags _ _⟩, hopts ▸ hoptions, h.within, hclosed, rfl⟩

theorem Keeps.call {c : Call} (hwithin : c.Within bound) (hcall : store.call c = .ok store') :
    store'.Keeps bound (content records c) := by
  cases c with
  | append record io => exact h.append hbound hwithin hcall
  | rewrite records' io => exact h.rewrite hbound hwithin hcall
  | reopen options => exact h.reopen hbound hwithin hcall

/-- **A run of calls keeps its records.** -/
theorem Keeps.calls {cs : List Call} (hwithin : ∀ c ∈ cs, c.Within bound)
    (hcalls : store.calls cs = .ok store') :
    store'.Keeps bound (contents records cs) := by
  induction cs generalizing store records with
  | nil =>
    obtain rfl : store = store' := Except.ok.inj hcalls
    exact h
  | cons c cs ih =>
    rw [List.forall_mem_cons] at hwithin
    obtain ⟨store₁, hcall, hcalls⟩ := foldlM_cons_eq_ok.mp hcalls
    exact ih (h.call hbound hwithin.1 hcall) hwithin.2 hcalls

end

end Keeps

/-- A new store keeps nothing yet. -/
theorem keeps_created {options : StoreOptions} {disk : Option (List UInt8)} (hnew : disk.getD [] = [])
    {opened store : Store} {σ : Type} {visit : σ → StoreRecord → σ × Bool} {s s' : σ}
    (hopen : (Store.open options disk).outcome = .ok opened)
    (hreplay : opened.visitRecords visit s = .ok (store, s')) {bound : Nat}
    (hoptions : bound ≤ options.maxRecordBytes.toNat) : store.Keeps bound [] := by
  obtain ⟨header, records, hholds, hopts, -, hclosed, hreplayed, hnil⟩ := holds_of_open hopen hreplay
  obtain rfl := hnil hnew
  exact ⟨⟨header, hholds⟩, hopts ▸ hoptions, by simp, hclosed, hreplayed⟩

/-- **The store is a faithful list of records.**  A new store is used in a run of successful
calls, with payloads that the encoder can produce and the options admit.  Then the log opens
cleanly, where the writer stood, and holds the records of the last rewrite and those appended
since. -/
theorem calls_reopens {options : StoreOptions} {disk : Option (List UInt8)} (hnew : disk.getD [] = [])
    {opened store store' : Store} {σ : Type} {visit : σ → StoreRecord → σ × Bool} {s s' : σ}
    (hopen : (Store.open options disk).outcome = .ok opened)
    (hreplay : opened.visitRecords visit s = .ok (store, s')) {bound : Nat}
    (hbound : bound ≤ Encoder.kMaxEncodedBytes) (hoptions : bound ≤ options.maxRecordBytes.toNat)
    {cs : List Call} (hwithin : ∀ c ∈ cs, c.Within bound) (hcalls : store.calls cs = .ok store') :
    store'.Reopens bound (contents [] cs) :=
  ((keeps_created hnew hopen hreplay hoptions).calls hbound hwithin hcalls).reopens hbound

/-- The records of a log that a store wrote: the log was new, and a run of calls left them. -/
def Written (records : List StoreRecord) : Prop :=
  ∃ (options : StoreOptions) (opened store store' : Store) (bound : Nat) (cs : List Call),
    (Store.open options none).outcome = .ok opened ∧
    opened.visitRecords collect [] = .ok (store, []) ∧ bound ≤ Encoder.kMaxEncodedBytes ∧
    bound ≤ options.maxRecordBytes.toNat ∧ (∀ c ∈ cs, c.Within bound) ∧
    store.calls cs = .ok store' ∧ records = contents [] cs

theorem Written.length_lt {records : List StoreRecord} (h : Written records) :
    ∀ record ∈ records, record.payload.length + 56 < 2 ^ 32 := by
  obtain ⟨options, opened, store, store', bound, cs, hopen, hreplay, hbound, hoptions, hwithin, hcalls,
    rfl⟩ := h
  have hkeeps := (keeps_created rfl hopen hreplay hoptions).calls hbound hwithin hcalls
  exact fun record hrecord => length_lt_of_within hbound (hkeeps.within record hrecord)

/-- A record is appended, the log rewritten with two, and one appended again. -/
def sampleCalls : List Call :=
  [.append sampleRecord .written, .rewrite [sampleRecord, sampleRecord] .done,
    .append sampleRecord .written]

theorem within_sampleCalls : ∀ c ∈ sampleCalls, c.Within 0 := by
  simp [sampleCalls, Call.Within, sampleRecord]

theorem exists_sampleCalls : ∃ store, sampleStore.calls sampleCalls = .ok store := ⟨_, rfl⟩

theorem calls_reopens_sample :
    ∃ store, sampleStore.calls sampleCalls = .ok store ∧
      store.Reopens 0 [sampleRecord, sampleRecord, sampleRecord] := by
  obtain ⟨store, hcalls⟩ := exists_sampleCalls
  exact ⟨store, hcalls, calls_reopens rfl open_sampleOptions replay_sampleOptions (Nat.zero_le _)
    (Nat.zero_le _) within_sampleCalls hcalls⟩

/-! ### A log that is cut short -/

/-- The parts of a log that is cut short: the frames of its first records, which is all of it or
all that lies inside the cut, and a part of the next frame. -/
theorem take_log (options : StoreOptions) {header : List UInt8} (hh : HeaderOk header)
    (records : List StoreRecord) {n : Nat} (hn : kHeaderBytes ≤ n) :
    ∃ before after rest, records = before ++ after ∧
      (header ++ frames options records).take n = header ++ frames options before ++ rest ∧
      recordStart options before ≤ n ∧
      (∀ record after', after = record :: after' → n < recordStart options (before ++ [record])) ∧
      (rest = [] ∨ ∃ record m, record ∈ after ∧ m < (recordFrame (positionAfter options before) record).length ∧
        rest = (recordFrame (positionAfter options before) record).take m) := by
  by_cases hshort : n < (header ++ frames options records).length
  · rw [List.length_append, hh.length] at hshort
    obtain ⟨before, record, after, m, rfl, hm, hlen, htake⟩ :=
      (storeFormat options.maxRecordBytes).take_encode logStart records
        (show n - kHeaderBytes < (frames options records).length by omega)
    have hstart : recordStart options before + m = n := by
      have hframes : n - kHeaderBytes = (frames options before).length + m := hlen
      unfold recordStart
      omega
    refine ⟨before, record :: after, (recordFrame (positionAfter options before) record).take m, rfl, ?_,
      by omega, ?_, .inr ⟨record, m, List.mem_cons_self, hm, rfl⟩⟩
    · rw [List.take_append, hh.length, List.take_of_length_le (hh.length.trans_le hn), List.append_assoc]
      exact congrArg (header ++ ·) htake
    · rintro record' after' heq
      obtain ⟨rfl, -⟩ := List.cons.inj heq
      have hnext : recordStart options (before ++ [record]) =
          recordStart options before + (recordFrame (positionAfter options before) record).length := by
        unfold recordStart
        rw [frames_concat, List.length_append, Nat.add_assoc]
      have hm' : m < (recordFrame (positionAfter options before) record).length := hm
      omega
  · refine ⟨records, [], [], (List.append_nil _).symm, ?_, ?_, by simp, .inl rfl⟩
    · rw [List.append_nil, List.take_of_length_le (Nat.not_lt.mp hshort)]
    · rw [← length_before options hh.length]
      exact Nat.not_lt.mp hshort

/-- What opening finds in the log of a store that was cut short. -/
theorem Keeps.open_take {store : Store} {bound : Nat} {records : List StoreRecord}
    (h : store.Keeps bound records) (hbound : bound ≤ Encoder.kMaxEncodedBytes) {n : Nat}
    (hn : kHeaderBytes ≤ n) {options : StoreOptions} (ho : Usable options)
    (hoptions : bound ≤ options.maxRecordBytes.toNat) :
    ∃ before after header, ∃ (recovered : Store) (report : RecoveryReport), records = before ++ after ∧
      recordStart options before ≤ n ∧
      (∀ record rest, after = record :: rest → n < recordStart options (before ++ [record])) ∧
      Store.open options (some (store.file.take n)) = ⟨report, some recovered.file, .ok recovered⟩ ∧
      recovered.file = store.file.take (recordStart options before) ∧
      report.bytesDiscarded = (store.file.take n).length - recordStart options before ∧
      recovered.Holds header before [] ∧ recovered.options = options ∧ recovered.handleOpen = true ∧
      recovered.closed = false ∧ recovered.replayed = false := by
  obtain ⟨header, hholds⟩ := h.holds
  have hh := hholds.headerOk
  have hfile : store.file = header ++ frames options records := by
    rw [hholds.file, List.append_nil, frames_options store.options options]
  obtain ⟨before, after, rest, rfl, htake, hle, hnext, hrest⟩ := take_log options hh records hn
  have hfits : ∀ r ∈ before ++ after, FitsFrame options.maxRecordBytes r := fun r hr =>
    fits_within hbound (hholds.fits r hr).kind (h.within r hr) hoptions
  have hgood : ∀ r ∈ before, FitsFrame options.maxRecordBytes r := fun r hr =>
    hfits r (List.mem_append_left _ hr)
  -- the open is a clean one where the cut falls between two frames
  obtain ⟨report, stop, hdiscarded, hopen⟩ : ∃ (report : RecoveryReport) (stop : Option ScanStop),
      report.bytesDiscarded = rest.length ∧
      Store.open options (some (header ++ frames options before ++ rest)) =
        ⟨report, some (header ++ frames options before),
          .ok (ofScan options (header ++ frames options before) ⟨before,
            positionAfter options before, (frames options before).length, stop⟩)⟩ := by
    by_cases hnil : rest = []
    · obtain ⟨report, ⟨-, -, hzero⟩, hlog⟩ := open_log ho hh hgood
      rw [hnil, List.append_nil]
      exact ⟨report, none, hzero, hlog⟩
    · obtain ⟨record, m, hrecord, hm, heq⟩ := hrest.resolve_left hnil
      obtain ⟨detail, htorn⟩ := scanRecord_front (positionAfter options before)
        (hfits record (List.mem_append_right _ hrecord)).length hm
      rw [← heq] at htorn
      rcases open_of_stop ho hh hgood hnil htorn with ⟨-, report, hdiscarded, hcut⟩ | ⟨hnot, -⟩
      · exact ⟨report, _, hdiscarded, hcut⟩
      · exact absurd (by simp [Recoverable, tornRecord]) hnot
  have hwhole : header ++ frames options before = store.file.take (recordStart options before) := by
    rw [hfile, ← length_before options hh.length, frames, frames, LogFormat.encode_append,
      ← List.append_assoc, List.take_left]
  have hlength : (store.file.take n).length = recordStart options before + rest.length := by
    rw [hfile, htake, List.length_append, length_before options hh.length]
  refine ⟨before, after, header, _, report, rfl, hle, hnext, ?_, hwhole, ?_,
    holds_ofScan ho hh hgood stop, rfl, rfl, rfl, rfl⟩
  · rw [hfile, htake, hopen]
    rfl
  · rw [hlength, Nat.add_sub_cancel_left, hdiscarded]

/-- **Any torn tail is recovered exactly.**  The log of a run is cut to some length that leaves
its header.  Opening it under either policy finds the records that lie wholly inside the cut,
keeps their frames and reports how many bytes it discarded.  The next open is a clean one, and
the store goes on from there. -/
theorem open_cut {options : StoreOptions} {disk : Option (List UInt8)} (hnew : disk.getD [] = [])
    {opened store store' : Store} {σ : Type} {visit : σ → StoreRecord → σ × Bool} {s s' : σ}
    (hopen : (Store.open options disk).outcome = .ok opened)
    (hreplay : opened.visitRecords visit s = .ok (store, s')) {bound : Nat}
    (hbound : bound ≤ Encoder.kMaxEncodedBytes) (hoptions : bound ≤ options.maxRecordBytes.toNat)
    {cs : List Call} (hwithin : ∀ c ∈ cs, c.Within bound) (hcalls : store.calls cs = .ok store')
    {n : Nat} (hn : kHeaderBytes ≤ n) {options' : StoreOptions} (ho : Usable options')
    (hoptions' : bound ≤ options'.maxRecordBytes.toNat) :
    ∃ before after, contents [] cs = before ++ after ∧ recordStart options' before ≤ n ∧
      (∀ record rest, after = record :: rest → n < recordStart options' (before ++ [record])) ∧
      ∃ recovered replayed,
        (Store.open options' (some (store'.file.take n))).outcome = .ok recovered ∧
        recovered.visitRecords collect [] = .ok (replayed, before) ∧
        (Store.open options' (some (store'.file.take n))).disk = some recovered.file ∧
        recovered.file = store'.file.take (recordStart options' before) ∧
        (Store.open options' (some (store'.file.take n))).report.bytesDiscarded =
          (store'.file.take n).length - recordStart options' before ∧
        recovered.Reopens bound before ∧
        (∀ record, validRecordKind record.kind = true → record.payload.length ≤ bound →
          (replayed.append record .written).2 = .ok ()) ∧
        ∀ cs' last, (∀ c ∈ cs', c.Within bound) → replayed.calls cs' = .ok last →
          last.Reopens bound (contents before cs') := by
  have hkeeps := (keeps_created hnew hopen hreplay hoptions).calls hbound hwithin hcalls
  obtain ⟨before, after, header, recovered, report, hsplit, hle, hnext, hcut, hfile, hdiscarded, hholds,
    rfl, hhandle, hclosed, hunread⟩ := hkeeps.open_take hbound hn ho hoptions'
  have hvisit := hholds.collects hclosed hunread
  obtain ⟨replayed, hreplayed⟩ : ∃ replayed, replayed = { recovered with replayed := true } := ⟨_, rfl⟩
  have hkept : replayed.Keeps bound before := by
    refine ⟨⟨header, ?_⟩, hreplayed ▸ hoptions', ?_, hreplayed ▸ hclosed, hreplayed ▸ rfl⟩
    · rw [hreplayed]
      exact hholds.flags _ _
    · intro r hr
      refine hkeeps.within r ?_
      rw [hsplit]
      exact List.mem_append_left _ hr
  rw [← hreplayed] at hvisit
  rw [hcut]
  refine ⟨before, after, hsplit, hle, hnext, recovered, replayed, rfl, hvisit, rfl, hfile, hdiscarded,
    ?_, ?_, ?_⟩
  · have hreopens := hkept.reopens hbound
    rw [hreplayed] at hreopens
    exact hreopens
  · intro record hkind hlen
    have hfit : FitsFrame replayed.options.maxRecordBytes record :=
      fits_within hbound hkind hlen hkept.bounded
    rw [append_written hkept.closed hkept.replayed (hreplayed ▸ hhandle) hfit]
  · intro cs' last hwithin' hcalls'
    exact (hkept.calls hbound hwithin' hcalls').reopens hbound

/-- The log of the sample run, cut inside its last frame. -/
theorem open_cut_sample :
    ∃ store, sampleStore.calls sampleCalls = .ok store ∧
      ∃ before after, [sampleRecord, sampleRecord, sampleRecord] = before ++ after ∧
        recordStart sampleOptions before ≤ 200 ∧
        ∃ recovered, (Store.open sampleOptions (some (store.file.take 200))).outcome = .ok recovered ∧
          recovered.Reopens 0 before := by
  obtain ⟨store, hcalls⟩ := exists_sampleCalls
  obtain ⟨before, after, hsplit, hle, -, recovered, replayed, hopen, -, -, -, -, hreopens, -⟩ :=
    open_cut rfl open_sampleOptions replay_sampleOptions (Nat.zero_le _) (Nat.zero_le _)
      within_sampleCalls hcalls (show kHeaderBytes ≤ 200 by decide) usable_sampleOptions (Nat.zero_le _)
  exact ⟨store, hcalls, before, after, hsplit, hle, recovered, hopen, hreopens⟩

end Store

end CableRegistry
