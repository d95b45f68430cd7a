import CableRegistry.ViewCodec

/-!
# Inspection and statistics

What an operator asks a registry for: everything that is unresolved (`Registry.inspect`) and the
counts (`Registry.stats`), and how both travel.

An inspection that was received is not the one that was sent (`InspectionView.received`): the decoder
reads the kind of a pending reference and of a refusal, and the disposition of a refusal, checks them
and leaves the fields at their defaults.
-/

open Std

namespace CableRegistry

open Decoder

/-! ### Inspection -/

abbrev FencedSessionView := SnapshotFencedSession

structure FencedObjectView where
  object : ObjectId := {}
  currentIncarnation : ObjectIncarnation := 0
  fencedClaims : UInt64 := 0
  physicalLabel : Text := []
  deriving Repr, DecidableEq

/-- One evidence record whose reference does not exist yet. -/
structure PendingReferenceView where
  evidence : EvidenceId := {}
  kind : EvidenceKind := .registerObject
  source : SourceId := {}
  incarnation : Incarnation := 0
  generation : Generation := 0
  detail : String := ""
  deriving Repr, DecidableEq

structure InspectionView where
  fencedSessions : List FencedSessionView := []
  fencedObjects : List FencedObjectView := []
  unvalidatedPorts : List PortView := []
  pendingReferences : List PendingReferenceView := []
  refusals : List RefusalView := []
  summary : GraphSummary := {}
  deriving DecidableEq

/-- The first record of a port, when its object or the port is not registered. -/
def pendingReference (state : RegistryState) (entry : PortRef × OrdMap PortSlotKey (Folded PortValue)) :
    Option PendingReferenceView :=
  match entry.2.toList with
  | [] => none
  | (key, record) :: _ =>
    let pending (detail : String) : PendingReferenceView :=
      { kind := .attach
        source := key.owner.source
        incarnation := key.owner.incarnation
        generation := record.metadata.generation
        evidence := record.metadata.evidence
        detail := detail }
    if !objectExists state record.value.subject.object then
      some (pending "the attached object is not registered yet")
    else if !portExists state entry.1 then some (pending "the port is not registered yet")
    else none

/-- The loop over the ports, with the number of unvalidated ports found so far.  The bound is checked
after a port was added, and ends the loop. -/
def inspectPorts (state : RegistryState) (limits : Limits) (bound : Nat) :
    Nat → List (PortRef × OrdMap PortSlotKey (Folded PortValue)) →
      List PortView × List PendingReferenceView
  | _, [] => ([], [])
  | found, entry :: entries =>
    match pendingReference state entry with
    | some pending =>
      let rest := inspectPorts state limits bound found entries
      (rest.1, pending :: rest.2)
    | none =>
      let port := derivePortView state limits entry.1 .includeAll
      if port.validation == .unvalidated && port.state != .unknown then
        if found + 1 ≥ bound then ([port], [])
        else
          let rest := inspectPorts state limits bound (found + 1) entries
          (port :: rest.1, rest.2)
      else inspectPorts state limits bound found entries

namespace Registry

def inspect (registry : Registry) (maxEntries : UInt32) : InspectionView :=
  let state := registry.state
  let bound := (min maxEntries registry.limits.maxSnapshotEntries).toNat
  let sessions := (state.sessions.toList.filter fun entry => sessionIsFenced state entry.1).map
    fun entry => fencedSession state entry.1
  let objects := ((fencedClaimsByObject state).toList.filter (·.2 != 0)).map fun entry =>
    { object := entry.1
      currentIncarnation := objectIncarnationOf state entry.1
      fencedClaims := entry.2
      physicalLabel := ((winningRegistration state entry.1).map (·.value.physicalLabel)).getD []
      : FencedObjectView }
  let found := inspectPorts state registry.limits bound 0 state.portRecords.toList
  let ports := (state.portRecords.toList.take (max 1 bound)).map fun entry =>
    derivePortView state registry.limits entry.1 .includeAll
  let views := (state.objectRegistrations.toList.take (max 1 bound)).map fun entry =>
    deriveObjectView state registry.limits entry.1 { includeObjectSides := false }
  { fencedSessions := sessions.take (max 1 bound)
    fencedObjects := objects.take (max 1 bound)
    unvalidatedPorts := found.1
    pendingReferences := found.2
    refusals := registry.refusals
    summary := summarize ports views (countFencedClaims state) (countPendingClaims state) }

end Registry

/-! ### Inspections on the wire -/

def encodeFencedSessionView (value : FencedSessionView) : List Write :=
  [.id128 value.source.value, .u64 value.incarnation, .u64 value.fencedBy, .u64 value.claims]

def encodeFencedObjectView (limits : Limits) (value : FencedObjectView) : List Write :=
  [Write.id128 value.object.value, .u64 value.currentIncarnation, .u64 value.fencedClaims] ++
    [Write.string value.physicalLabel limits.maxStringBytes]

def decodeFencedObjectView (limits : Limits) : Decoder FencedObjectView := do
  let object ← strongId
  let currentIncarnation ← u64
  let fencedClaims ← u64
  let physicalLabel ← string limits.maxStringBytes
  pure ⟨object, currentIncarnation, fencedClaims, physicalLabel⟩

/-- The values of the kinds of evidence. -/
def kindInRange (raw : UInt16) : Prop := 1 ≤ raw ∧ raw ≤ 9

instance (raw : UInt16) : Decidable (kindInRange raw) :=
  inferInstanceAs (Decidable (1 ≤ raw ∧ raw ≤ 9))

def encodePendingReference (limits : Limits) (value : PendingReferenceView) : List Write :=
  [Write.id128 value.evidence.value, .u16 value.kind.raw, .id128 value.source.value,
    .u64 value.incarnation, .u64 value.generation] ++
    [Write.string (textOf value.detail) limits.maxStringBytes]

/-- The kind is checked and then dropped. -/
def decodePendingReference (limits : Limits) : Decoder PendingReferenceView := do
  let evidence ← strongId
  let kind ← u16
  let source ← strongId
  let incarnation ← u64
  let generation ← u64
  let detail ← detail limits
  guard (kindInRange kind)
  pure { evidence := evidence, source := source, incarnation := incarnation, generation := generation
         detail := detail }

/-- What the receiver of a pending reference has. -/
def PendingReferenceView.received (v : PendingReferenceView) : PendingReferenceView :=
  { v with kind := .registerObject }

def encodeRefusal (limits : Limits) (value : RefusalView) : List Write :=
  [Write.id128 value.evidence.value, .u16 value.kind.raw, .id128 value.source.value,
    .u64 value.incarnation, .u64 value.generation, .u8 value.disposition.raw] ++
    [Write.string (textOf value.detail) limits.maxStringBytes]

/-- The kind and the disposition are checked and then dropped. -/
def decodeRefusal (limits : Limits) : Decoder RefusalView := do
  let evidence ← strongId
  let kind ← u16
  let source ← strongId
  let incarnation ← u64
  let generation ← u64
  let disposition ← u8
  let detail ← detail limits
  guard (kindInRange kind ∧ disposition ≤ IngestDisposition.refusedPersistence.raw)
  pure { evidence := evidence, source := source, incarnation := incarnation, generation := generation
         detail := detail }

/-- What the receiver of a refusal has. -/
def RefusalView.received (v : RefusalView) : RefusalView :=
  { v with kind := .registerObject, disposition := .refusedInvalid }

def encodeInspectionView (limits : Limits) (value : InspectionView) : List Write :=
  encodeList encodeFencedSessionView value.fencedSessions ++
    encodeList (encodeFencedObjectView limits) value.fencedObjects ++
    encodeList (encodePortView limits) value.unvalidatedPorts ++
    encodeList (encodePendingReference limits) value.pendingReferences ++
    encodeList (encodeRefusal limits) value.refusals ++ encodeSummary value.summary

/-- The product is taken in 32 bits. -/
def decodeInspectionView (limits : Limits) : Decoder InspectionView := do
  let fencedSessions ← decodeVector (limits.maxSources * 64) decodeFencedSession
  let fencedObjects ← decodeVector limits.maxObjects (decodeFencedObjectView limits)
  let unvalidatedPorts ← decodeVector limits.maxSnapshotEntries (decodePortView limits)
  let pendingReferences ← decodeVector limits.maxEvidenceBatch (decodePendingReference limits)
  let refusals ← decodeVector limits.maxRefusalAudit (decodeRefusal limits)
  let summary ← decodeSummary
  pure ⟨fencedSessions, fencedObjects, unvalidatedPorts, pendingReferences, refusals, summary⟩

/-- What the receiver of an inspection has. -/
def InspectionView.received (v : InspectionView) : InspectionView :=
  { v with
    pendingReferences := v.pendingReferences.map (·.received)
    refusals := v.refusals.map (·.received) }

structure InspectionView.Readable (v : InspectionView) (limits : Limits) : Prop where
  fencedSessions : v.fencedSessions.length ≤ (limits.maxSources * 64).toNat
  fencedObjects : v.fencedObjects.length ≤ limits.maxObjects.toNat
  unvalidatedPorts : Within limits.maxSnapshotEntries (·.Readable limits) v.unvalidatedPorts
  pendingReferences : v.pendingReferences.length ≤ limits.maxEvidenceBatch.toNat
  refusals : v.refusals.length ≤ limits.maxRefusalAudit.toNat

/-! ### Statistics -/

structure RegistryStats where
  registry : RegistryId := {}
  openedAt : Timestamp := 0
  objects : UInt64 := 0
  endpoints : UInt64 := 0
  ports : UInt64 := 0
  sources : UInt64 := 0
  sessions : UInt64 := 0
  liveSessions : UInt64 := 0
  claimRecords : UInt64 := 0
  portRecords : UInt64 := 0
  lifecycleRecords : UInt64 := 0
  capabilityRecords : UInt64 := 0
  evidenceAccepted : UInt64 := 0
  evidenceRefused : UInt64 := 0
  evidenceDuplicate : UInt64 := 0
  evidenceSuperseded : UInt64 := 0
  evidenceFenced : UInt64 := 0
  evidencePending : UInt64 := 0
  storeRecords : UInt64 := 0
  storeBytes : UInt64 := 0
  storeRewrites : UInt64 := 0
  recovery : RecoveryReport := {}
  deriving DecidableEq

/-- The sizes of the rings of a group. -/
def sumSuperseded {κ ι ν : Type} [Ord κ] [TransOrd κ] [Ord ι] [TransOrd ι] (groups : Groups κ ι ν) :
    UInt64 :=
  sumGroups groups fun _ _ record => UInt64.ofNat record.superseded.length

/-- The number of records of a group. -/
def countRecords {κ ι ν : Type} [Ord κ] [TransOrd κ] [Ord ι] [TransOrd ι] (groups : Groups κ ι ν) :
    UInt64 :=
  sumGroups groups fun _ _ _ => 1

def buildStats (state : RegistryState) (recovery : RecoveryReport) (store : Option Store) :
    RegistryStats :=
  let sessions := state.sessions.toList.map (·.2)
  { registry := state.id
    openedAt := state.openedAt
    objects := UInt64.ofNat state.objectRegistrations.size
    endpoints := UInt64.ofNat state.endpointRegistrations.size
    ports := state.endpointRegistrations.toList.foldl
      (fun total entry => total + (endpointPortCount state entry.1).toUInt64) 0
    sources := UInt64.ofNat state.sources.size
    sessions := UInt64.ofNat state.sessions.size
    liveSessions := count64 sessions (·.live)
    claimRecords := countRecords state.subjectRecords
    portRecords := countRecords state.portRecords
    lifecycleRecords := countRecords state.lifecycleRecords
    capabilityRecords := countRecords state.objectCapabilityRecords +
      countRecords state.portCapabilityRecords
    evidenceAccepted := sessions.foldl (fun total session => total + session.accepted) 0
    evidenceRefused := sessions.foldl (fun total session => total + session.refused) 0
    evidenceDuplicate := sessions.foldl (fun total session => total + session.duplicates) 0
    evidenceSuperseded := sumSuperseded state.objectRegistrations +
      sumSuperseded state.endpointRegistrations + sumSuperseded state.subjectRecords +
      sumSuperseded state.lifecycleRecords + sumSuperseded state.reincarnationRecords +
      sumSuperseded state.objectCapabilityRecords + sumSuperseded state.portCapabilityRecords +
      sumSuperseded state.portRecords
    evidenceFenced := countFencedClaims state
    evidencePending := countPendingClaims state
    storeRecords := UInt64.ofNat ((store.map fun s => s.recordsLoaded + s.recordsWritten).getD 0)
    storeBytes := UInt64.ofNat ((store.map (·.bytesOnDisk)).getD 0)
    storeRewrites := UInt64.ofNat ((store.map (·.rewriteCount)).getD 0)
    recovery := recovery }

def Registry.stats (registry : Registry) : RegistryStats :=
  buildStats registry.state registry.recovery registry.store

/-! ### Statistics on the wire -/

namespace RecoveryIssue

def raw : RecoveryIssue → UInt8
  | created => 0
  | cleanOpen => 1
  | truncatedTail => 2
  | corruptRecordSalvaged => 3
  | badHeader => 4
  | chainBreak => 5
  | unsupportedVersion => 6
  | ioFailure => 7

/-- The conversion of a value that was checked. -/
def ofRaw : UInt8 → RecoveryIssue
  | 0 => created
  | 1 => cleanOpen
  | 2 => truncatedTail
  | 3 => corruptRecordSalvaged
  | 4 => badHeader
  | 5 => chainBreak
  | 6 => unsupportedVersion
  | _ => ioFailure

end RecoveryIssue

def encodeRecoveryReport (limits : Limits) (value : RecoveryReport) : List Write :=
  [Write.boolean value.opened, .boolean value.created, .boolean value.salvaged,
    .boolean value.chainIntact, .u32 value.formatVersion, .u64 (.ofNat value.recordsLoaded),
    .u64 (.ofNat value.recordsRejected), .u64 (.ofNat value.bytesLoaded),
    .u64 (.ofNat value.bytesDiscarded), .u8 value.issue.raw, .u64 (.ofNat value.issueOffset)] ++
    [Write.string (textOf value.detail) limits.maxStringBytes]

def decodeRecoveryReport (limits : Limits) : Decoder RecoveryReport := do
  let opened ← boolean
  let created ← boolean
  let salvaged ← boolean
  let chainIntact ← boolean
  let formatVersion ← u32
  let recordsLoaded ← u64
  let recordsRejected ← u64
  let bytesLoaded ← u64
  let bytesDiscarded ← u64
  let issue ← u8
  let issueOffset ← u64
  let detail ← detail limits
  guard (issue ≤ RecoveryIssue.ioFailure.raw)
  pure ⟨opened, created, salvaged, chainIntact, formatVersion, recordsLoaded.toNat,
    recordsRejected.toNat, bytesLoaded.toNat, bytesDiscarded.toNat, RecoveryIssue.ofRaw issue,
    issueOffset.toNat, detail⟩

/-- What the receiver of a report has: the counts are sent in 64 bits. -/
def RecoveryReport.received (v : RecoveryReport) : RecoveryReport :=
  { v with
    recordsLoaded := (UInt64.ofNat v.recordsLoaded).toNat
    recordsRejected := (UInt64.ofNat v.recordsRejected).toNat
    bytesLoaded := (UInt64.ofNat v.bytesLoaded).toNat
    bytesDiscarded := (UInt64.ofNat v.bytesDiscarded).toNat
    issueOffset := (UInt64.ofNat v.issueOffset).toNat }

def encodeRegistryStats (limits : Limits) (value : RegistryStats) : List Write :=
  [Write.id128 value.registry.value, .i64 value.openedAt, .u64 value.objects, .u64 value.endpoints,
    .u64 value.ports, .u64 value.sources, .u64 value.sessions, .u64 value.liveSessions,
    .u64 value.claimRecords, .u64 value.portRecords, .u64 value.lifecycleRecords,
    .u64 value.capabilityRecords, .u64 value.evidenceAccepted, .u64 value.evidenceRefused,
    .u64 value.evidenceDuplicate, .u64 value.evidenceSuperseded, .u64 value.evidenceFenced,
    .u64 value.evidencePending, .u64 value.storeRecords, .u64 value.storeBytes,
    .u64 value.storeRewrites] ++ encodeRecoveryReport limits value.recovery

def decodeRegistryStats (limits : Limits) : Decoder RegistryStats := do
  let registry ← strongId
  let openedAt ← i64
  let objects ← u64
  let endpoints ← u64
  let ports ← u64
  let sources ← u64
  let sessions ← u64
  let liveSessions ← u64
  let claimRecords ← u64
  let portRecords ← u64
  let lifecycleRecords ← u64
  let capabilityRecords ← u64
  let evidenceAccepted ← u64
  let evidenceRefused ← u64
  let evidenceDuplicate ← u64
  let evidenceSuperseded ← u64
  let evidenceFenced ← u64
  let evidencePending ← u64
  let storeRecords ← u64
  let storeBytes ← u64
  let storeRewrites ← u64
  let recovery ← decodeRecoveryReport limits
  pure ⟨registry, openedAt, objects, endpoints, ports, sources, sessions, liveSessions, claimRecords,
    portRecords, lifecycleRecords, capabilityRecords, evidenceAccepted, evidenceRefused,
    evidenceDuplicate, evidenceSuperseded, evidenceFenced, evidencePending, storeRecords, storeBytes,
    storeRewrites, recovery⟩

def RegistryStats.received (v : RegistryStats) : RegistryStats :=
  { v with recovery := v.recovery.received }

end CableRegistry
