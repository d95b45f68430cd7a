import CableRegistry.Faults

/-!
# Salvage

A store that may salvage opens every file that begins with a valid header.  It keeps the records
that pass the checks one after the other from the start, cuts off the rest and reports how much that
is; what it leaves is a clean log of those records (`salvage_converges`).
-/

namespace CableRegistry

namespace Store

variable {options : StoreOptions} {file header : List UInt8} {report : RecoveryReport} {store : Store}

/-- **Salvage converges.**  A file is a valid header and any bytes.  Opened with the permission to
salvage it is cut off behind the longest list of records whose frames pass every check in sequence,
and the report counts the bytes that go.  A strict open then finds a clean log, with the same
records, at the same position of the chain. -/
theorem salvage_converges (ho : Usable options) (hpolicy : options.recoveryPolicy = .salvagePrefix)
    (hh : HeaderOk header) (bytes : List UInt8) :
    ∃ (store again : Store) (records : List StoreRecord) (rest : List UInt8),
      (Store.open options (some (header ++ bytes))).outcome = .ok store ∧
      (∀ rs, (storeFormat options.maxRecordBytes).Accepts logStart bytes rs ↔ rs <+: records) ∧
      store.visitRecords collect [] = .ok ({ store with replayed := true }, records) ∧
      store.file = header ++ frames options records ∧ header ++ bytes = store.file ++ rest ∧
      (Store.open options (some (header ++ bytes))).disk = some store.file ∧
      (Store.open options (some (header ++ bytes))).report.bytesDiscarded = rest.length ∧
      (Store.open options (some (header ++ bytes))).report.recordsLoaded = records.length ∧
      (Store.open { options with recoveryPolicy := .strict } (some store.file)).outcome = .ok again ∧
      (Store.open { options with recoveryPolicy := .strict } (some store.file)).report.issue =
        .cleanOpen ∧
      again.visitRecords collect [] = .ok ({ again with replayed := true }, records) ∧
      again.file = store.file ∧ again.chain = store.chain ∧
      again.nextSequence = store.nextSequence := by
  obtain ⟨report, -, hopen⟩ := open_existing ho hh bytes
  obtain ⟨hgood, hscan, -, hend⟩ := scanFile_parts options (header ++ bytes)
  obtain ⟨-, report', -, hloaded, hdiscarded, hrecover⟩ := (recover_cases options (header ++ bytes) report
    _ hend).resolve_right fun hrefused => hrefused.1 fun _ _ => .inr hpolicy
  generalize ofScan options _ _ = store at hrecover
  obtain ⟨hholds, hoptions, hclosed, -, hunread, hdisk, -, -, rest, hrest⟩ :=
    holds_of_recover ho hh (congrArg Opening.outcome hrecover)
  have haccepts := LogFormat.accepts_iff (lawful_storeFormat options.maxRecordBytes) logStart bytes
  have hbytes : (storeFormat options.maxRecordBytes).scan logStart bytes =
      scanFile options (header ++ bytes) := by
    rw [scanFile, ← hh.length, List.drop_left]
  rw [hbytes] at haccepts
  rw [← hopen] at hrecover hdisk
  have hsize : (scanFile options (header ++ bytes)).size =
      (frames options (scanFile options (header ++ bytes)).records).length := by
    rw [hscan]
  generalize scanFile options (header ++ bytes) = scan at *
  have hfile : store.file = header ++ frames options scan.records := by
    rw [hholds.file, hoptions, List.append_nil]
  have hposition := hholds.position
  rw [hoptions] at hposition
  -- what the strict open finds
  have hstrict := ho.withPolicy .strict
  obtain ⟨report', ⟨-, hissue, -⟩, hagain⟩ := open_log hstrict hh hgood
  refine ⟨_, _, scan.records, rest, congrArg Opening.outcome hrecover, haccepts,
    hholds.collects hclosed hunread, hfile, hrest, hdisk, ?_, ?_, ?_, ?_,
    (holds_ofScan hstrict hh hgood none).collects rfl rfl, ?_, ?_, ?_⟩
  · rw [hrecover, hdiscarded, hrest, hfile, hsize, ← hh.length, List.length_append, List.length_append]
    omega
  · rw [hrecover, hloaded]
  · rw [hfile]
    exact congrArg Opening.outcome hagain
  · rw [hfile]
    exact (congrArg (·.report.issue) hagain).trans hissue
  · exact hfile.symm
  · exact (congrArg LogPosition.chain hposition).symm
  · exact (congrArg LogPosition.sequence hposition).symm

/-- Three bytes that are no record. -/
theorem salvage_converges_sample :
    ∃ (store again : Store) (records : List StoreRecord),
      (Store.open { sampleOptions with recoveryPolicy := .salvagePrefix }
        (some (storeHeader ++ [1, 2, 3]))).outcome = .ok store ∧
      (Store.open sampleOptions (some store.file)).outcome = .ok again ∧
      again.visitRecords collect [] = .ok ({ again with replayed := true }, records) := by
  obtain ⟨store, again, records, rest, hopen, -, -, -, -, -, -, -, hagain, -, hvisit, -⟩ :=
    @salvage_converges { sampleOptions with recoveryPolicy := .salvagePrefix } _
      ⟨rfl, by decide, by decide⟩ rfl headerOk_storeHeader [1, 2, 3]
  exact ⟨store, again, records, hopen, hagain, hvisit⟩

end Store

end CableRegistry
