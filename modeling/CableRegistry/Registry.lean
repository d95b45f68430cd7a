import CableRegistry.Ingest
import CableRegistry.Snapshot
import CableRegistry.Store
import CableRegistry.Validation

/-!
# The registry

The operations a caller has: opening a registry, which replays its log; opening
and closing source sessions; ingesting evidence, which is made durable before it
is applied; compacting; and the queries.  A clock reading, a random identity and
what the operating system does with a write are arguments of the operation.

`Request` names the operations that change a registry and `Registry.step` runs
one; a run is a list of requests.
-/

open Std

namespace CableRegistry

structure RegistryOptions where
  id : RegistryId := {}
  limits : Limits := {}
  store : Option StoreOptions := none
  historyPerKey : UInt32 := 8
  deriving Repr, DecidableEq

/-- One refused record in the bounded audit. -/
structure RefusalView where
  evidence : EvidenceId := {}
  kind : EvidenceKind := .registerObject
  source : SourceId := {}
  incarnation : Incarnation := 0
  generation : Generation := 0
  disposition : IngestDisposition := .refusedInvalid
  detail : String := ""
  deriving Repr, DecidableEq

inductive SessionDisposition where
  | opened | resumed | reopened | newIncarnation | refusedFenced | refusedDescriptorConflict
  | refusedInvalid | refusedCapacity | refusedPersistence | refusedClosed
  deriving Repr, DecidableEq

/-- The session is open after the call. -/
def SessionDisposition.isOpen : SessionDisposition → Bool
  | opened | resumed | reopened | newIncarnation => true
  | _ => false

structure OpenSessionResult where
  disposition : SessionDisposition := .refusedInvalid
  key : SourceIncarnationKey := {}
  previousIncarnation : Incarnation := 0
  fencedClaims : UInt64 := 0
  detail : String := ""
  deriving Repr, DecidableEq

structure Registry where
  options : RegistryOptions
  limits : Limits
  historyPerKey : UInt32
  state : RegistryState
  store : Option Store := none
  recovery : RecoveryReport := {}
  refusals : List RefusalView := []
  closed : Bool := false
  labelIndex : Option LabelIndex := none

namespace Registry

/-! ### Ingest -/

/-- Adds to the refusal audit and drops what exceeds its bound from the front.  The stream the
record belongs to is not filled in. -/
def noteRefusal (registry : Registry) (result : IngestResult) : Registry :=
  let refusals := registry.refusals ++
    [{ evidence := result.evidence
       kind := result.kind
       disposition := result.disposition
       detail := result.detail }]
  { registry with refusals := refusals.drop (refusals.length - registry.limits.maxRefusalAudit.toNat) }

/-- Appends to the store; a registry without one has nothing to do. -/
def appendRecord (registry : Registry) (record : StoreRecord) (io : Store.AppendIo) :
    Registry × Outcome Unit :=
  match registry.store with
  | none => (registry, .ok ())
  | some store =>
    let (store, outcome) := store.append record io
    ({ registry with store := some store }, outcome)

/-- The envelope of an evidence record in the log. -/
def encodeEnvelope (evidence : Evidence) (receivedAt : Timestamp) (limits : Limits) : List Write :=
  [.u32 1, .i64 receivedAt] ++ encodeEvidence evidence limits

def persistEvidence (registry : Registry) (evidence : Evidence) (receivedAt : Timestamp)
    (io : Store.AppendIo) : Registry × Bool :=
  let encoder := Encoder.run (encodeEnvelope evidence receivedAt registry.limits)
  if registry.store.isNone then (registry, true)
  else if !encoder.ok then (registry, false)
  else
    let (registry, outcome) := registry.appendRecord ⟨.evidence, encoder.take⟩ io
    (registry, outcome.isOk)

/-- Writes a staged change to the state and to the label index when there is one. -/
def applyStaged (registry : Registry) (change : StagedChange) : Registry :=
  { registry with
    state := applyChange registry.historyPerKey registry.state change
    labelIndex := registry.labelIndex.map (·.applyChange change) }

/-- Live evidence is made durable; replayed evidence already is. -/
def makeDurable (registry : Registry) (evidence : Evidence) (receivedAt : Timestamp) (persist : Bool)
    (io : Store.AppendIo) : Registry × Bool :=
  if persist then registry.persistEvidence evidence receivedAt io else (registry, true)

/-- Makes a decision durable and applies it. -/
def commit (registry : Registry) (evidence : Evidence) (receivedAt : Timestamp) (persist : Bool)
    (io : Store.AppendIo) (decision : Decision) : Registry × IngestDisposition × String :=
  let registry := { registry with labelIndex := decision.labelIndex }
  if decision.change.apply && decision.disposition.isAccepted then
    let (registry, durable) := registry.makeDurable evidence receivedAt persist io
    if durable then (registry.applyStaged decision.change, decision.disposition, decision.detail)
    else (registry, .refusedPersistence, "the record could not be made durable")
  else (registry, decision.disposition, decision.detail)

/-- The counters of a session after a record. -/
def countRecord (session : SessionRecord) (generation : Generation)
    (disposition : IngestDisposition) : SessionRecord :=
  let session := if generation > session.highWater then
      { session with
        missingGenerations := if session.highWater ≠ 0 then
            session.missingGenerations + (generation - session.highWater - 1)
          else session.missingGenerations
        highWater := generation }
    else session
  if disposition.isAccepted then
    { session with
      accepted := session.accepted + 1
      duplicates := if disposition = .duplicate then session.duplicates + 1 else session.duplicates }
  else { session with refused := session.refused + 1 }

/-- Counts a record in its session. -/
def touchSession (registry : Registry) (key : SourceIncarnationKey) (session : SessionRecord) :
    Registry :=
  { registry with state := { registry.state with
      sessions := registry.state.sessions.insert key session } }

/-- Refuses a record before it is decided. -/
def refuse (registry : Registry) (persist : Bool) (result : IngestResult) : Registry × IngestResult :=
  (if persist then registry.noteRefusal result else registry, result)

/-- The attestation a record gets, or why it cannot have one. -/
def admitRecord (registry : Registry) (evidence : Evidence) (receivedAt : Timestamp) (live : Bool) :
    Except (IngestDisposition × String) Attestation :=
  match validateEvidenceShape evidence registry.limits with
  | .error error => .error (.refusedInvalid, error)
  | .ok () =>
    match registry.state.sources[evidence.header.source]? with
    | none => .error (.refusedUnknownSource,
        "the source is not registered; open a session before publishing")
    | some source =>
      if !source.described then
        .error (.refusedUnknownSource,
          "the source is not registered; open a session before publishing")
      else if !registry.state.sessions.contains evidence.key then
        .error (.refusedUnknownSource, "no session is open for source incarnation " ++
          toString evidence.header.incarnation.toNat)
      else .ok (attestationOf evidence source.descriptor.authority receivedAt live)

/-- Counts a committed record in its session and fills in the result. -/
def conclude (evidence : Evidence) (persist : Bool) (result : IngestResult)
    (committed : Registry × IngestDisposition × String) : Registry × IngestResult :=
  let (registry, disposition, detail) := committed
  let session := countRecord (registry.state.sessions.getD evidence.key {})
    evidence.header.generation disposition
  let registry := registry.touchSession evidence.key session
  -- The audit keeps a copy of the result from before the high water mark is filled in.
  let result := { result with disposition := disposition, detail := detail }
  let registry := if persist && !disposition.isAccepted then registry.noteRefusal result
    else registry
  (registry, { result with highWater := session.highWater })

def ingestLocked (registry : Registry) (evidence : Evidence) (receivedAt : Timestamp)
    (persist live : Bool) (io : Store.AppendIo) : Registry × IngestResult :=
  let result : IngestResult :=
    { evidence := evidence.header.id, kind := evidence.kindOf, receivedAt := receivedAt }
  if registry.closed then
    (registry, { result with
      disposition := .refusedClosed
      detail := "the registry is stopping and no longer accepts work" })
  else match registry.admitRecord evidence receivedAt live with
    | .error (disposition, detail) =>
      registry.refuse persist { result with disposition := disposition, detail := detail }
    | .ok metadata =>
      let decision := decideEvidence registry.limits registry.state registry.labelIndex metadata
        evidence.payload
      conclude evidence persist result (registry.commit evidence receivedAt persist io decision)

def ingest (registry : Registry) (evidence : Evidence) (now : Timestamp) (io : Store.AppendIo) :
    Registry × IngestResult :=
  registry.ingestLocked evidence now true true io

/-- Ingests the first records of a batch, one after the other. -/
def ingestBatch (registry : Registry) (batch : List (Evidence × Timestamp × Store.AppendIo)) :
    Registry × List IngestResult :=
  (batch.take registry.limits.maxEvidenceBatch.toNat).foldl (fun done element =>
    let (registry, result) := done.1.ingestLocked element.1 element.2.1 true true element.2.2
    (registry, done.2 ++ [result])) (registry, [])

/-! ### Sessions -/

/-- A source as a session of the given incarnation leaves it. -/
def registerSource (source : SourceRecord) (descriptor : SourceDescriptor)
    (incarnation : Incarnation) : SourceRecord :=
  let source := if !source.described || incarnation > source.descriptorIncarnation then
      { source with
        descriptor := descriptor, descriptorIncarnation := incarnation, described := true }
    else source
  if incarnation > source.currentIncarnation then
    { source with currentIncarnation := incarnation }
  else source

/-- Registers the source and the session in the state. -/
def applySessionOpen (state : RegistryState) (descriptor : SourceDescriptor)
    (incarnation : Incarnation) (openedAt : Timestamp) : RegistryState :=
  let source := registerSource (state.sources.getD descriptor.id {}) descriptor incarnation
  let key : SourceIncarnationKey := ⟨descriptor.id, incarnation⟩
  let session := state.sessions.getD key {}
  let session := if session.openedAt = 0 then { session with openedAt := openedAt } else session
  { state with
    sources := state.sources.insert descriptor.id source
    sessions := state.sessions.insert key session }

/-- The checks of an open, in order. -/
def admitSession (registry : Registry) (descriptor : SourceDescriptor) (incarnation : Incarnation) :
    Except OpenSessionResult Unit := do
  let existing := registry.state.sources[descriptor.id]?
  let previous := (existing.map (·.currentIncarnation)).getD 0
  refuseIf registry.closed { disposition := .refusedClosed, detail := "the registry is stopping" }
  refuseIf (descriptor.id.isNil || incarnation == 0)
    { disposition := .refusedInvalid
      detail := "the source identity and incarnation must both be set" }
  refuseIf (!fits descriptor.name registry.limits.maxStringBytes ||
      !fits descriptor.administrativeDomain registry.limits.maxStringBytes)
    { disposition := .refusedInvalid
      detail := "a source descriptor string exceeds the configured limit" }
  refuseIf (!descriptor.authority.authorityClass.declared)
    { disposition := .refusedInvalid, detail := "the authority class is not recognised" }
  refuseIf (existing.isNone && registry.state.sources.size ≥ registry.limits.maxSources.toNat)
    { disposition := .refusedCapacity, detail := "the registry has reached its source limit" }
  refuseIf (existing.isSome && incarnation < previous)
    { disposition := .refusedFenced
      previousIncarnation := previous
      detail := "incarnation " ++ toString incarnation.toNat ++ " is fenced by " ++
        toString previous.toNat }
  refuseIf (existing.any fun source =>
      incarnation == previous && source.described && source.descriptor != descriptor)
    { disposition := .refusedDescriptorConflict
      previousIncarnation := previous
      detail := "a source's descriptor and authority are bound to its incarnation; " ++
        "reopen with a higher incarnation" }

/-- The payload of a session record. -/
def encodeSessionOpen (descriptor : SourceDescriptor) (incarnation : Incarnation)
    (openedAt : Timestamp) (limits : Limits) : List Write :=
  encodeSourceDescriptor descriptor limits ++ [.u64 incarnation, .i64 openedAt]

/-- Makes the session record durable. -/
def persistSession (registry : Registry) (descriptor : SourceDescriptor) (incarnation : Incarnation)
    (recordedAt : Timestamp) (io : Store.AppendIo) : Registry × Except OpenSessionResult Unit :=
  let encoder := Encoder.run (encodeSessionOpen descriptor incarnation recordedAt registry.limits)
  if registry.store.isNone then (registry, .ok ())
  else if !encoder.ok then
    (registry, .error { disposition := .refusedInvalid
                        detail := "the session record could not be encoded" })
  else match registry.appendRecord ⟨.sessionOpen, encoder.take⟩ io with
    | (registry, .error error) =>
      (registry, .error { disposition := .refusedPersistence, detail := error.message })
    | (registry, .ok ()) => (registry, .ok ())

/-- The session is live and its source is at least at its incarnation. -/
def makeLive (state : RegistryState) (key : SourceIncarnationKey) : RegistryState :=
  let session := state.sessions.getD key {}
  let source := state.sources.getD key.source {}
  { state with
    sessions := state.sessions.insert key { session with live := true, closed := false }
    sources := state.sources.insert key.source
      { source with currentIncarnation := max source.currentIncarnation key.incarnation } }

/-- The result of an open that went through, seen from the state before it. -/
def openedResult (state : RegistryState) (key : SourceIncarnationKey) : OpenSessionResult :=
  let existing := state.sources[key.source]?
  let previous := (existing.map (·.currentIncarnation)).getD 0
  let wasLive := (state.sessions[key]?).any (·.live)
  let result : OpenSessionResult :=
    { key := key
      previousIncarnation := previous
      fencedClaims := if key.incarnation > previous then
          countClaimsBefore state key.source key.incarnation else 0 }
  if existing.isNone || previous == 0 then
    { result with disposition := .opened, detail := "the source was registered" }
  else if key.incarnation > previous then
    { result with
      disposition := .newIncarnation
      detail := "incarnation " ++ toString key.incarnation.toNat ++ " replaced " ++
        toString previous.toNat ++ "; the earlier incarnation is fenced" }
  else if wasLive then
    { result with
      disposition := .resumed
      detail := "the session was already live in this registry lifetime" }
  else
    { result with
      disposition := .reopened
      detail := "the incarnation was recovered from durable storage; " ++
        "its claims stay historical until re-asserted" }

/-- Registers a source or advances its incarnation.  The clock is read once for the
record and once for the state. -/
def openSession (registry : Registry) (descriptor : SourceDescriptor) (incarnation : Incarnation)
    (recordedAt appliedAt : Timestamp) (io : Store.AppendIo) : Registry × OpenSessionResult :=
  match registry.admitSession descriptor incarnation with
  | .error refusal => (registry, refusal)
  | .ok () =>
    match registry.persistSession descriptor incarnation recordedAt io with
    | (registry, .error refusal) => (registry, refusal)
    | (registry, .ok ()) =>
      let key : SourceIncarnationKey := ⟨descriptor.id, incarnation⟩
      let state := applySessionOpen registry.state descriptor incarnation appliedAt
      ({ registry with state := makeLive state key }, openedResult registry.state key)

/-- Marks a session closed. -/
def applySessionClose (state : RegistryState) (key : SourceIncarnationKey) : RegistryState :=
  match state.sessions[key]? with
  | none => state
  | some session =>
    { state with sessions := state.sessions.insert key { session with live := false, closed := true } }

def encodeSessionClose (key : SourceIncarnationKey) : List Write :=
  [.id128 key.source.value, .u64 key.incarnation]

def closeSession (registry : Registry) (key : SourceIncarnationKey) (io : Store.AppendIo) :
    Registry × Outcome Unit :=
  if registry.closed then (registry, makeError .closed "the registry is stopping")
  else if !registry.state.sessions.contains key then
    (registry, makeError .notFound "no session is open for that source incarnation")
  else
    match registry.appendRecord ⟨.sessionClose, (Encoder.run (encodeSessionClose key)).take⟩ io with
    | (registry, .error error) => (registry, makeError .persistenceFailure error.message)
    | (registry, .ok ()) =>
      ({ registry with state := applySessionClose registry.state key }, .ok ())

/-! ### Opening -/

/-- One record of the log, replayed. -/
def replayRecord (registry : Registry) (record : StoreRecord) : Except String Registry :=
  if record.kind = .stateSnapshot then
    match (decodeState registry.limits).whole record.payload with
    | none => .error "the compacted state image could not be decoded"
    | some loaded => .ok { registry with state := loaded, labelIndex := none }
  else if record.kind = .sessionOpen then
    let decoder : Decoder (SourceDescriptor × Incarnation × Timestamp) := do
      let descriptor ← decodeSourceDescriptor registry.limits
      let incarnation ← Decoder.u64
      let openedAt ← Decoder.i64
      pure (descriptor, incarnation, openedAt)
    match decoder.whole record.payload with
    | none => .error "a session record could not be decoded"
    | some (descriptor, incarnation, openedAt) =>
      if incarnation = 0 ∨ descriptor.id.isNil then
        .error "a session record carries an invalid incarnation"
      else .ok { registry with
        state := applySessionOpen registry.state descriptor incarnation openedAt }
  else if record.kind = .sessionClose then
    let decoder : Decoder SourceIncarnationKey := do
      let source ← Decoder.strongId
      let incarnation ← Decoder.u64
      pure ⟨source, incarnation⟩
    match decoder.whole record.payload with
    | none => .error "a session close record could not be decoded"
    | some key => .ok { registry with state := applySessionClose registry.state key }
  else if record.kind = .evidence then
    let decoder : Decoder (Timestamp × Evidence) := do
      let envelopeVersion ← Decoder.u32
      guard (envelopeVersion = 1)
      let receivedAt ← Decoder.i64
      let evidence ← decodeEvidence registry.limits
      pure (receivedAt, evidence)
    match decoder.whole record.payload with
    | none => .error "an evidence record could not be decoded"
    | some (receivedAt, evidence) =>
      .ok (registry.ingestLocked evidence receivedAt false false .written).1
  else .error "the store contains a record kind this version does not understand"

/-- The visitor of the replay: a record that cannot be replayed stops it. -/
def replayVisit (progress : Registry × Option String) (record : StoreRecord) :
    (Registry × Option String) × Bool :=
  match progress.1.replayRecord record with
  | .error error => ((progress.1, some error), false)
  | .ok registry => ((registry, none), true)

/-- What opening a registry takes from its surroundings: the clock, a draw of the random
engine and the fate of the first append. -/
structure OpenEnv where
  now : Timestamp
  draw : Id128
  io : Store.AppendIo := .written

/-- The checks on the options. -/
def checkOptions (options : RegistryOptions) : Outcome Unit := do
  validateLimits options.limits
  refuseIf (options.historyPerKey == 0)
    ⟨.invalidArgument, "history_per_key must be greater than zero"⟩
  refuseIf (!options.id.isNil && options.id.value.isNil)
    ⟨.invalidArgument, "registry identity is nil"⟩

/-- A registry without a record. -/
def initial (options : RegistryOptions) (now : Timestamp) : Registry where
  options := options
  limits := options.limits
  historyPerKey := min options.historyPerKey options.limits.maxHistoryPerKey
  state := { id := options.id, openedAt := now }

/-- Gives a registry without an identity the configured one or a random one. -/
def mintId (registry : Registry) (draw : Id128) : Registry :=
  if registry.state.id.isNil then
    { registry with state := { registry.state with
        id := if registry.options.id.isNil then ⟨randomId128 draw⟩ else registry.options.id } }
  else registry

/-- The payload of a state image. -/
def imageOf (registry : Registry) : Encoder :=
  Encoder.run (encodeState (clearVolatile registry.state) registry.limits)

/-- The first record of a new log. -/
def bootstrap (registry : Registry) (io : Store.AppendIo) : Registry × Outcome Unit :=
  if !registry.imageOf.ok then
    (registry, makeError .internal "the initial state image could not be encoded")
  else registry.appendRecord ⟨.stateSnapshot, registry.imageOf.take⟩ io

def clearLifetime (registry : Registry) : Registry :=
  { registry with state := clearVolatile registry.state }

/-- The file behind a registry. -/
def disk (registry : Registry) : Option (List UInt8) := registry.store.map (·.file)

/-- Opens a registry on what the disk holds.  Returns what the disk holds afterwards. -/
def «open» (options : RegistryOptions) (disk : Option (List UInt8)) (env : OpenEnv) :
    Option (List UInt8) × Outcome Registry :=
  match checkOptions options, options.store with
  | .error error, _ => (disk, .error error)
  | .ok (), none => (disk, .ok ((initial options env.now).mintId env.draw).clearLifetime)
  | .ok (), some storeOptions =>
    let opening := Store.open storeOptions disk
    match opening.outcome with
    | .error error => (opening.disk, .error error)
    | .ok store =>
      let registry := { initial options env.now with recovery := opening.report }
      match store.visitRecords replayVisit (registry, none) with
      | .error error => (opening.disk, .error error)
      | .ok (_, _, some failure) => (opening.disk, makeError .corruptStore failure)
      | .ok (store, registry, none) =>
        if !registry.state.id.isNil && !options.id.isNil && registry.state.id != options.id then
          (opening.disk, makeError .conflict
            ("the store belongs to registry " ++ registry.state.id.toHex ++ " but " ++
              options.id.toHex ++ " was requested"))
        else
          let registry := { registry with store := some store }.mintId env.draw
          if opening.report.created then
            match registry.bootstrap env.io with
            | (registry, .error error) => (registry.disk, .error error)
            | (registry, .ok ()) => (registry.disk, .ok registry.clearLifetime)
          else (opening.disk, .ok registry.clearLifetime)

/-! ### Compaction and closing -/

/-- Rewrites the log as a single state image. -/
def compact (registry : Registry) (io : Store.RewriteIo) : Registry × Outcome Unit :=
  if registry.closed then (registry, makeError .closed "the registry is stopping")
  else match registry.store with
    | none => (registry, makeError .invalidArgument "the registry has no store to compact")
    | some store =>
      if !registry.imageOf.ok then
        (registry, makeError .capacityExceeded "the state image exceeds the encoder ceiling")
      else
        let (store, outcome) := store.rewrite [⟨.stateSnapshot, registry.imageOf.take⟩] io
        ({ registry with store := some store },
          outcome.mapError fun error => ⟨.persistenceFailure, error.message⟩)

/-- Stops accepting work. -/
def close (registry : Registry) : Registry :=
  if registry.closed then registry
  else { registry with closed := true, store := registry.store.map (·.close) }

/-! ### Queries -/

def queryPort (registry : Registry) (port : PortRef) (policy : ValidationPolicy) :
    Outcome PortView := do
  refuseIf port.endpoint.isNil ⟨.invalidArgument, "the port names a nil endpoint"⟩
  refuseIf (!endpointExists registry.state port.endpoint)
    ⟨.notFound, "the endpoint is not registered"⟩
  refuseIf (!portExists registry.state port)
    ⟨.notFound, "the port index is outside the endpoint"⟩
  pure (derivePortView registry.state registry.limits port policy)

def queryObject (registry : Registry) (object : ObjectId) (options : QueryOptions) :
    Outcome ObjectView := do
  refuseIf object.isNil ⟨.invalidArgument, "the object identity is nil"⟩
  refuseIf (!objectExists registry.state object) ⟨.notFound, "the object is not registered"⟩
  pure (deriveObjectView registry.state registry.limits object options)

def snapshot (registry : Registry) : TopologySnapshot := buildSnapshot registry.state registry.limits

def graphDigest (registry : Registry) : Digest256 := registry.snapshot.graphDigest

end Registry

/-! ### Runs -/

/-- An operation that changes a registry, with what it takes from its surroundings. -/
inductive Request where
  | openSession (descriptor : SourceDescriptor) (incarnation : Incarnation)
      (recordedAt appliedAt : Timestamp) (io : Store.AppendIo)
  | closeSession (key : SourceIncarnationKey) (io : Store.AppendIo)
  | ingest (evidence : Evidence) (receivedAt : Timestamp) (io : Store.AppendIo)
  | compact (io : Store.RewriteIo)
  | reopen (env : Registry.OpenEnv)

/-- One operation.  Only opening the log again can leave nothing to go on with. -/
def Registry.step (registry : Registry) : Request → Outcome Registry
  | .openSession descriptor incarnation recordedAt appliedAt io =>
    .ok (registry.openSession descriptor incarnation recordedAt appliedAt io).1
  | .closeSession key io => .ok (registry.closeSession key io).1
  | .ingest evidence receivedAt io => .ok (registry.ingest evidence receivedAt io).1
  | .compact io => .ok (registry.compact io).1
  | .reopen env => (Registry.open registry.options registry.disk env).2

/-- A run of requests. -/
def Registry.run (registry : Registry) (requests : List Request) : Outcome Registry :=
  requests.foldlM Registry.step registry

end CableRegistry
