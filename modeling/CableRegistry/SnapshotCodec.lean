import CableRegistry.SnapshotOrder

/-!
# Reading a snapshot back

The decoder of canonical snapshots.  It bounds every count and every text it reads and checks every
enumeration, and it says what it could not read.

`snapshot_round_trip` is the inverse of the encoding: a snapshot within those bounds, whose encoding
succeeds, is read back in canonical form.  `Readable` collects the bounds, one structure for each
kind of record, and each decoder has its lemma `carries_…`.  The messages play no part in that:
`readSnapshot` is the decoder without them, and `toOption_decodeSnapshot` says that it accepts the
same bytes.
-/

open Std

namespace CableRegistry

open Decoder

/-! ### Enumerations -/

/-- The conversion of a value that was checked. -/
def ConflictReason.ofRaw : UInt8 → ConflictReason
  | 0 => none
  | 1 => tooManyAttachments
  | 2 => emptyAndOccupied
  | 3 => objectSideDoubleBooked
  | 4 => lifecycleConflict
  | 5 => capabilityConflict
  | 6 => incompatibleConnector
  | _ => incompatibleMedia

def PortAttachmentState.ofRaw : UInt8 → PortAttachmentState
  | 0 => unknown
  | 1 => empty
  | 2 => attached
  | _ => conflicting

def LifecycleState.ofRaw : UInt8 → LifecycleState
  | 0 => registered
  | 1 => unattached
  | 2 => attached
  | 3 => quarantined
  | 4 => removed
  | 5 => retired
  | _ => conflicting

theorem ConflictReason.ofRaw_raw (reason : ConflictReason) :
    ofRaw reason.raw = reason ∧ reason.raw ≤ incompatibleMedia.raw := by
  cases reason <;> decide

theorem PortAttachmentState.ofRaw_raw (state : PortAttachmentState) :
    ofRaw state.raw = state ∧ state.raw ≤ conflicting.raw := by
  cases state <;> decide

theorem LifecycleState.ofRaw_raw (state : LifecycleState) :
    ofRaw state.raw = state ∧ state.raw ≤ conflicting.raw := by
  cases state <;> decide

/-! ### Decoders -/

def decodeClaim : Decoder SnapshotClaim := do
  let source ← strongId
  let incarnation ← u64
  let generation ← u64
  let evidence ← strongId
  let observedAt ← i64
  let provenance ← u8
  let authorityClass ← u8
  let rank ← u32
  guard ((ProvenanceClass.mk provenance).declared ∧ (AuthorityClass.mk authorityClass).declared)
  pure ⟨source, incarnation, generation, evidence, observedAt, ⟨provenance⟩, ⟨⟨authorityClass⟩, rank⟩⟩

def decodeClaims (limits : Limits) : Decoder (List SnapshotClaim) :=
  decodeVector limits.maxClaimRecordsPerPort decodeClaim

def decodeAttachment (limits : Limits) : Decoder SnapshotAttachment := do
  let subject ← decodeObjectSideRef
  let port ← decodePortRef
  let slot ← u32
  let objectIncarnation ← u64
  let authorityClass ← u8
  let rank ← u32
  let connectorCompatible ← boolean
  let mediaCompatible ← boolean
  let conflicting ← boolean
  guard (AuthorityClass.mk authorityClass).declared
  let claims ← decodeClaims limits
  pure ⟨subject, port, slot, objectIncarnation, ⟨⟨authorityClass⟩, rank⟩, connectorCompatible,
    mediaCompatible, conflicting, claims⟩

def decodeConflict (limits : Limits) : Decoder SnapshotConflict := do
  let reason ← u8
  let subject ← decodeObjectSideRef
  let port ← decodePortRef
  guard (reason ≤ ConflictReason.incompatibleMedia.raw)
  let claims ← decodeClaims limits
  pure ⟨ConflictReason.ofRaw reason, subject, port, claims⟩

def decodePort (limits : Limits) : Decoder SnapshotPort := do
  let port ← decodePortRef
  let state ← u8
  let capability ← decodePortCapability limits
  guard (state ≤ PortAttachmentState.conflicting.raw)
  let attachments ← decodeVector limits.maxClaimRecordsPerPort (decodeAttachment limits)
  let conflicts ← decodeVector limits.maxClaimRecordsPerPort (decodeConflict limits)
  pure ⟨port, PortAttachmentState.ofRaw state, capability, attachments, conflicts⟩

def decodeObject (limits : Limits) : Decoder SnapshotObject := do
  let id ← strongId
  let kind ← u8
  let physicalLabel ← string limits.maxStringBytes
  let serialLike ← string limits.maxStringBytes
  let administrativeLocation ← string limits.maxStringBytes
  let incarnation ← u64
  let lifecycle ← u8
  guard ((ObjectKind.mk kind).declared ∧ lifecycle ≤ LifecycleState.conflicting.raw)
  let capability ← decodeCapability limits
  let sides ← decodeVector limits.maxSidesPerObject decodeSideDescriptor
  let attachments ← decodeVector limits.maxClaimRecordsPerPort (decodeAttachment limits)
  pure ⟨id, ⟨kind⟩, physicalLabel, serialLike, administrativeLocation, incarnation,
    LifecycleState.ofRaw lifecycle, capability, sides, attachments⟩

def decodeEndpoint (limits : Limits) : Decoder SnapshotEndpoint := do
  let id ← strongId
  let kind ← u8
  let name ← string limits.maxStringBytes
  let administrativeLocation ← string limits.maxStringBytes
  let portCount ← u32
  guard ((EndpointKind.mk kind).declared ∧ portCount ≤ limits.maxPortsPerEndpoint)
  let defaultPortCapability ← decodePortCapability limits
  pure ⟨id, ⟨kind⟩, name, administrativeLocation, portCount, defaultPortCapability⟩

def decodeSummary : Decoder GraphSummary := do
  let portsAttached ← u64
  let portsEmpty ← u64
  let portsUnknown ← u64
  let portsConflicting ← u64
  let objectsTotal ← u64
  let objectsRegistered ← u64
  let objectsUnattached ← u64
  let objectsAttached ← u64
  let objectsQuarantined ← u64
  let objectsRemoved ← u64
  let objectsRetired ← u64
  let edges ← u64
  let edgesUnvalidated ← u64
  let conflicts ← u64
  let claimsFenced ← u64
  let claimsPending ← u64
  pure ⟨portsAttached, portsEmpty, portsUnknown, portsConflicting, objectsTotal, objectsRegistered,
    objectsUnattached, objectsAttached, objectsQuarantined, objectsRemoved, objectsRetired, edges,
    edgesUnvalidated, conflicts, claimsFenced, claimsPending⟩

def decodeFencedSession : Decoder SnapshotFencedSession := do
  let source ← strongId
  let incarnation ← u64
  let fencedBy ← u64
  let claims ← u64
  pure ⟨source, incarnation, fencedBy, claims⟩

def decodeFencedObject : Decoder SnapshotFencedObject := do
  let object ← strongId
  let currentIncarnation ← u64
  let fencedClaims ← u64
  pure ⟨object, currentIncarnation, fencedClaims⟩

/-- Bytes of the right number. -/
def toDigest (raw : List UInt8) : Option Digest256 :=
  if h : raw.length = 32 then some ⟨raw.toArray, by simpa using h⟩ else none

def decodeDigest : Decoder Digest256 := do
  let raw ← bytes 32
  match toDigest raw with
  | some digest => pure digest
  | none => failure

/-! ### The snapshot -/

/-- A reading that says why it fails. -/
abbrev Reading := StateT (List UInt8) (Except Error)

/-- Runs a decoder, with the message for when it fails. -/
def orCorrupt {α : Type} (message : String) (d : Decoder α) : Reading α := fun s =>
  match d s with
  | some r => .ok r
  | none => makeError .corruptStore message

def reject (condition : Bool) (error : Error) : Reading Unit := fun s =>
  if condition then .error error else .ok ((), s)

def readCount (maxCount : UInt32) : Decoder UInt32 := do
  let count ← u32
  guard (count ≤ maxCount)
  pure count

/-- A count within the bound on entries, and that many entries. -/
def readEntries {α : Type} (what : String) (limits : Limits) (d : Decoder α) : Reading (List α) := do
  let count ← orCorrupt ("snapshot " ++ what ++ " count is out of bounds")
    (readCount limits.maxSnapshotEntries)
  orCorrupt ("snapshot " ++ what ++ " is malformed") (Reader.times count.toNat d)

def readDigest : Reading Digest256 := do
  let raw ← orCorrupt "snapshot provenance digest is truncated" (bytes 32)
  orCorrupt "snapshot provenance digest has the wrong size" fun s => (toDigest raw).map (·, s)

def readFields (limits : Limits) : Reading TopologySnapshot := do
  let formatVersion ← orCorrupt "snapshot header is truncated" u32
  reject (formatVersion != kSnapshotFormatVersion) ⟨.unsupportedVersion,
    "snapshot format version " ++ toString formatVersion.toNat ++ " is not supported"⟩
  let registry ← orCorrupt "snapshot registry identity is truncated" strongId
  let provenanceDigest ← readDigest
  let summary ← orCorrupt "snapshot summary is truncated" decodeSummary
  let objects ← readEntries "object" limits (decodeObject limits)
  let endpoints ← readEntries "endpoint" limits (decodeEndpoint limits)
  let ports ← readEntries "port" limits (decodePort limits)
  let fencedSessions ← readEntries "fenced session" limits decodeFencedSession
  let fencedObjects ← readEntries "fenced object" limits decodeFencedObject
  pure ⟨formatVersion, registry, summary, objects, endpoints, ports, fencedSessions, fencedObjects,
    provenanceDigest⟩

def decodeSnapshot (data : List UInt8) (limits : Limits) : Outcome TopologySnapshot :=
  match readFields limits data with
  | .error error => .error error
  | .ok (snapshot, []) => .ok snapshot
  | .ok (_, rest) =>
    makeError .corruptStore ("snapshot carries " ++ toString rest.length ++ " trailing bytes")

/-- The decoder without its messages. -/
def readSnapshot (limits : Limits) : Decoder TopologySnapshot := do
  let formatVersion ← u32
  guard (formatVersion = kSnapshotFormatVersion)
  let registry ← strongId
  let provenanceDigest ← decodeDigest
  let summary ← decodeSummary
  let objects ← decodeVector limits.maxSnapshotEntries (decodeObject limits)
  let endpoints ← decodeVector limits.maxSnapshotEntries (decodeEndpoint limits)
  let ports ← decodeVector limits.maxSnapshotEntries (decodePort limits)
  let fencedSessions ← decodeVector limits.maxSnapshotEntries decodeFencedSession
  let fencedObjects ← decodeVector limits.maxSnapshotEntries decodeFencedObject
  pure ⟨formatVersion, registry, summary, objects, endpoints, ports, fencedSessions, fencedObjects,
    provenanceDigest⟩

/-! ### Messages play no part -/

/-- A reading accepts what the decoder accepts. -/
def Agrees {α : Type} (m : Reading α) (d : Decoder α) : Prop := ∀ s, (m s).toOption = d s

namespace Agrees

variable {α β : Type}

theorem orCorrupt (message : String) (d : Decoder α) : Agrees (orCorrupt message d) d := by
  intro s
  unfold CableRegistry.orCorrupt
  cases d s <;> rfl

theorem pure (x : α) : Agrees (Pure.pure x) (Pure.pure x) := fun _ => rfl

theorem bind {m : Reading α} {d : Decoder α} {f : α → Reading β} {g : α → Decoder β}
    (hm : Agrees m d) (hf : ∀ x, Agrees (f x) (g x)) : Agrees (m >>= f) (d >>= g) := by
  intro s
  change ((m s).bind fun r => f r.1 r.2).toOption = (d s).bind fun r => g r.1 r.2
  rw [← hm s]
  cases m s with
  | error error => rfl
  | ok r => exact hf r.1 r.2

theorem reject {condition : Bool} (error : Error) (p : Prop) [Decidable p]
    (h : condition = false ↔ p) : Agrees (reject condition error) (guard p) := by
  intro s
  unfold CableRegistry.reject
  cases condition with
  | true => simp only [guard, if_neg (fun hp => absurd (h.mpr hp) (by simp))]; rfl
  | false => simp only [guard, if_pos (h.mp rfl)]; rfl

theorem readEntries (what : String) (limits : Limits) (d : Decoder α) :
    Agrees (readEntries what limits d) (decodeVector limits.maxSnapshotEntries d) := by
  have hvector : decodeVector limits.maxSnapshotEntries d =
      readCount limits.maxSnapshotEntries >>= fun count => Reader.times count.toNat d := by
    simp only [decodeVector, readCount, bind_assoc, pure_bind]
  rw [hvector]
  exact (orCorrupt _ _).bind fun count => orCorrupt _ _

theorem readDigest : Agrees readDigest decodeDigest := by
  refine (orCorrupt _ _).bind fun raw => ?_
  intro s
  unfold CableRegistry.orCorrupt
  cases toDigest raw <;> rfl

theorem readFields (limits : Limits) : Agrees (readFields limits) (readSnapshot limits) :=
  (orCorrupt _ _).bind fun formatVersion =>
    (reject _ (formatVersion = kSnapshotFormatVersion) (by simp)).bind fun _ =>
    (orCorrupt _ _).bind fun _ => readDigest.bind fun _ => (orCorrupt _ _).bind fun _ =>
    (readEntries _ _ _).bind fun _ => (readEntries _ _ _).bind fun _ => (readEntries _ _ _).bind fun _ =>
    (readEntries _ _ _).bind fun _ => (readEntries _ _ _).bind fun _ => pure _

end Agrees

/-- **The decoder accepts what `readSnapshot` reads as a whole.** -/
theorem toOption_decodeSnapshot (data : List UInt8) (limits : Limits) :
    (decodeSnapshot data limits).toOption = whole (readSnapshot limits) data := by
  unfold decodeSnapshot whole
  rw [← Agrees.readFields limits data]
  cases readFields limits data with
  | error error => rfl
  | ok r =>
    obtain ⟨snapshot, rest⟩ := r
    cases rest <;> rfl

variable {limits : Limits} {snapshot : TopologySnapshot} {maxCount : UInt32}

theorem decodeSnapshot_eq_ok {data : List UInt8} {limits : Limits} {snapshot : TopologySnapshot} :
    decodeSnapshot data limits = .ok snapshot ↔ whole (readSnapshot limits) data = some snapshot := by
  rw [← toOption_decodeSnapshot]
  cases decodeSnapshot data limits <;> simp [Except.toOption]

/-! ### What is within the bounds -/

def SnapshotClaim.Readable (claim : SnapshotClaim) : Prop :=
  claim.provenance.declared ∧ claim.authority.authorityClass.declared

/-- The list is within the bound, and so is each element. -/
def Within {α : Type} (maxCount : UInt32) (p : α → Prop) (l : List α) : Prop :=
  l.length ≤ maxCount.toNat ∧ ∀ x ∈ l, p x

structure SnapshotAttachment.Readable (attachment : SnapshotAttachment) (limits : Limits) : Prop where
  authority : attachment.authority.authorityClass.declared
  claims : Within limits.maxClaimRecordsPerPort SnapshotClaim.Readable attachment.claims

def SnapshotConflict.Readable (conflict : SnapshotConflict) (limits : Limits) : Prop :=
  Within limits.maxClaimRecordsPerPort SnapshotClaim.Readable conflict.claims

structure SnapshotPort.Readable (port : SnapshotPort) (limits : Limits) : Prop where
  inRange : port.capability.InRange limits
  declared : port.capability.declared
  attachments : Within limits.maxClaimRecordsPerPort (·.Readable limits) port.attachments
  conflicts : Within limits.maxClaimRecordsPerPort (·.Readable limits) port.conflicts

structure SnapshotObject.Readable (object : SnapshotObject) (limits : Limits) : Prop where
  kind : object.kind.declared
  capability : object.capability.declared
  sides : Within limits.maxSidesPerObject (fun side => side.declared = true) object.sides
  attachments : Within limits.maxClaimRecordsPerPort (·.Readable limits) object.attachments

structure SnapshotEndpoint.Readable (endpoint : SnapshotEndpoint) (limits : Limits) : Prop where
  kind : endpoint.kind.declared
  portCount : endpoint.portCount ≤ limits.maxPortsPerEndpoint
  inRange : endpoint.defaultPortCapability.InRange limits
  declared : endpoint.defaultPortCapability.declared

structure TopologySnapshot.Readable (snapshot : TopologySnapshot) (limits : Limits) : Prop where
  formatVersion : snapshot.formatVersion = kSnapshotFormatVersion
  objects : Within limits.maxSnapshotEntries (·.Readable limits) snapshot.objects
  endpoints : Within limits.maxSnapshotEntries (·.Readable limits) snapshot.endpoints
  ports : Within limits.maxSnapshotEntries (·.Readable limits) snapshot.ports
  fencedSessions : snapshot.fencedSessions.length ≤ limits.maxSnapshotEntries.toNat
  fencedObjects : snapshot.fencedObjects.length ≤ limits.maxSnapshotEntries.toNat

/-! ### Reading back -/

theorem carries_list {α : Type} {element : Decoder α} {enc : α → List Write} {p : α → Prop}
    {maxCount : UInt32} {l : List α} (hl : Within maxCount p l)
    (h : ∀ x, p x → Carries element (enc x) x True) :
    Carries (decodeVector maxCount element) (encodeList enc l) l True :=
  (Carries.vector maxCount l (fun _ => Nat.lt_of_le_of_lt hl.1 maxCount.toNat_lt) fun x hx =>
    h x (hl.2 x hx)).of_ok ⟨hl.1, fun _ _ => trivial⟩

theorem carries_claim {v : SnapshotClaim} (h : v.Readable) : Carries decodeClaim (encodeClaim v) v True :=
  .strongId <| .u64 <| .u64 <| .strongId <| .i64 <| .u8 <| .u8 <| .u32 <| .pass h <| .pure v

theorem carries_claims {l : List SnapshotClaim}
    (h : Within limits.maxClaimRecordsPerPort SnapshotClaim.Readable l) :
    Carries (decodeClaims limits) (encodeList encodeClaim l) l True :=
  carries_list h fun _ hx => carries_claim hx

theorem carries_attachment {v : SnapshotAttachment} (h : v.Readable limits) :
    Carries (decodeAttachment limits) (encodeAttachment v) v True := by
  simp only [encodeAttachment, encodeAuthority, List.append_assoc, List.cons_append, List.nil_append]
  exact .andThen (carries_objectSideRef _) <| .andThen (carries_portRef _) <| .u32 <| .u64 <| .u8 <|
    .u32 <| .boolean <| .boolean <| .boolean <| .pass h.authority <|
    .thenPure (carries_claims h.claims) rfl

theorem carries_conflict {v : SnapshotConflict} (h : v.Readable limits) :
    Carries (decodeConflict limits) (encodeConflict v) v True := by
  obtain ⟨hraw, hle⟩ := v.reason.ofRaw_raw
  simp only [encodeConflict, List.append_assoc, List.cons_append, List.nil_append]
  exact .u8 <| .andThen (carries_objectSideRef _) <| .andThen (carries_portRef _) <| .pass hle <|
    .thenPure (carries_claims h) (by rw [hraw])

theorem carries_port {v : SnapshotPort} (h : v.Readable limits) :
    Carries (decodePort limits) (encodePort v) v True := by
  obtain ⟨hraw, hle⟩ := v.state.ofRaw_raw
  simp only [encodePort, List.append_assoc, List.cons_append, List.nil_append]
  exact .andThen (carries_portRef _) <| .u8 <|
    .andThen ((carries_portCapability _ limits).of_ok ⟨h.inRange, h.declared⟩) <| .pass hle <|
    .andThen (carries_list h.attachments fun _ hx => carries_attachment hx) <|
    .thenPure (carries_list h.conflicts fun _ hx => carries_conflict hx) (by rw [hraw])

theorem carries_object {v : SnapshotObject} (h : v.Readable limits) :
    Carries (decodeObject limits) (encodeObject v limits) v True := by
  obtain ⟨hraw, hle⟩ := v.lifecycle.ofRaw_raw
  simp only [encodeObject, List.append_assoc, List.cons_append, List.nil_append]
  exact .strongId <| .u8 <| .text <| .text <| .text <| .u64 <| .u8 <| .pass ⟨h.kind, hle⟩ <|
    .andThen ((carries_capability _ limits).of_ok h.capability) <|
    .andThen (carries_list h.sides fun x hx => (carries_sideDescriptor x).of_ok hx) <|
    .thenPure (carries_list h.attachments fun _ hx => carries_attachment hx) (by rw [hraw])

theorem carries_endpoint {v : SnapshotEndpoint} (h : v.Readable limits) :
    Carries (decodeEndpoint limits) (encodeEndpoint v limits) v True :=
  .strongId <| .u8 <| .text <| .text <| .u32 <| .pass ⟨h.kind, h.portCount⟩ <|
    .thenPure ((carries_portCapability _ limits).of_ok ⟨h.inRange, h.declared⟩) rfl

theorem carries_summary (v : GraphSummary) : Carries decodeSummary (encodeSummary v) v True :=
  .u64 <| .u64 <| .u64 <| .u64 <| .u64 <| .u64 <| .u64 <| .u64 <| .u64 <| .u64 <| .u64 <| .u64 <|
    .u64 <| .u64 <| .u64 <| .u64 <| .pure v

theorem carries_fencedSession (v : SnapshotFencedSession) :
    Carries decodeFencedSession [.id128 v.source.value, .u64 v.incarnation, .u64 v.fencedBy,
      .u64 v.claims] v True :=
  .strongId <| .u64 <| .u64 <| .u64 <| .pure v

theorem carries_fencedObject (v : SnapshotFencedObject) :
    Carries decodeFencedObject [.id128 v.object.value, .u64 v.currentIncarnation,
      .u64 v.fencedClaims] v True :=
  .strongId <| .u64 <| .u64 <| .pure v

theorem toDigest_toList (digest : Digest256) : toDigest digest.toList = some digest := by
  unfold toDigest
  rw [dif_pos (by simp)]
  rfl

theorem reads_digest (v : Digest256) :
    Reads decodeDigest (Write.bytes v.toList).toBytes v True := by
  have hlen : v.toList.length ≤ (32 : UInt32).toNat := by simp
  have hbytes : Reads (bytes 32) (Write.bytes v.toList).toBytes v.toList True :=
    reads_string_same v.toList 32 hlen
  refine hbytes.thenPure ?_
  rw [toDigest_toList]

/-- The fields of a snapshot, in the order in which it holds them. -/
def snapshotFields (includeRegistry : Bool) (limits : Limits) (snapshot : TopologySnapshot) :
    List Write :=
  [.u32 snapshot.formatVersion] ++
    (if includeRegistry then [.id128 snapshot.registry.value] else []) ++
    [.bytes snapshot.provenanceDigest.toList] ++ encodeSummary snapshot.summary ++
    encodeList (encodeObject · limits) snapshot.objects ++
    encodeList (encodeEndpoint · limits) snapshot.endpoints ++
    encodeList encodePort snapshot.ports ++
    encodeList (fun session => [.id128 session.source.value, .u64 session.incarnation,
      .u64 session.fencedBy, .u64 session.claims]) snapshot.fencedSessions ++
    encodeList (fun object => [.id128 object.object.value, .u64 object.currentIncarnation,
      .u64 object.fencedClaims]) snapshot.fencedObjects

/-- What is encoded is the canonical form. -/
theorem encodeSnapshot_eq (snapshot : TopologySnapshot) (includeRegistry : Bool) (limits : Limits) :
    encodeSnapshot snapshot includeRegistry limits =
      snapshotFields includeRegistry limits (canonicalise snapshot) := rfl

theorem fits_of_encodeList {α : Type} {enc : α → List Write} {l : List α}
    (h : ∀ w ∈ encodeList enc l, w.Fits) : ∀ x ∈ l, ∀ w ∈ enc x, w.Fits := by
  intro x hx w hw
  exact h w (List.mem_cons_of_mem _ (List.mem_flatMap.mpr ⟨x, hx, hw⟩))

/-- **A snapshot within the bounds is read back from its fields.** -/
theorem carries_snapshot {v : TopologySnapshot} (h : v.Readable limits) :
    Carries (readSnapshot limits) (snapshotFields true limits v) v True := by
  simp only [snapshotFields, if_true, List.append_assoc, List.cons_append, List.nil_append]
  exact .u32 <| .pass h.formatVersion <| .strongId <| .fieldThen (fun _ => reads_digest _) <|
    .andThen (carries_summary _) <|
    .andThen (carries_list h.objects fun _ hx => carries_object hx) <|
    .andThen (carries_list h.endpoints fun _ hx => carries_endpoint hx) <|
    .andThen (carries_list h.ports fun _ hx => carries_port hx) <|
    .andThen (carries_list ⟨h.fencedSessions, fun _ _ => trivial⟩ fun x _ => carries_fencedSession x) <|
    .thenPure (carries_list ⟨h.fencedObjects, fun _ _ => trivial⟩ fun x _ => carries_fencedObject x) rfl

/-! ### The canonical form is within the bounds too -/

theorem Within.sortBy_map {α : Type} {p : α → Prop} {less : α → α → Bool} {f : α → α} {l : List α}
    (h : Within maxCount p l) (hf : ∀ x, p x → p (f x)) :
    Within maxCount p ((sortBy less l).map f) := by
  constructor
  · rw [List.length_map, length_sortBy]
    exact h.1
  · intro y hy
    obtain ⟨x, hx, rfl⟩ := List.mem_map.mp hy
    exact hf x (h.2 x (mem_sortBy.mp hx))

theorem Within.sortBy {α : Type} {p : α → Prop} {l : List α} (h : Within maxCount p l)
    (less : α → α → Bool) : Within maxCount p (sortBy less l) :=
  ⟨by rw [length_sortBy]; exact h.1, fun x hx => h.2 x (mem_sortBy.mp hx)⟩

theorem SnapshotObject.Readable.canonicalise {limits : Limits} {object : SnapshotObject}
    (h : object.Readable limits) : (canonicaliseObject object).Readable limits where
  kind := h.kind
  capability := h.capability
  sides := h.sides
  attachments := h.attachments.sortBy_map fun _ hx => ⟨hx.authority, hx.claims.sortBy claimLess⟩

theorem SnapshotPort.Readable.canonicalise {port : SnapshotPort} (h : port.Readable limits) :
    (canonicalisePort port).Readable limits where
  inRange := h.inRange
  declared := h.declared
  attachments := h.attachments.sortBy_map fun _ hx => ⟨hx.authority, hx.claims.sortBy claimLess⟩
  conflicts := h.conflicts.sortBy_map fun _ hx => hx.sortBy claimLess

theorem TopologySnapshot.Readable.canonicalise (h : snapshot.Readable limits) :
    (canonicalise snapshot).Readable limits where
  formatVersion := h.formatVersion
  objects := h.objects.sortBy_map fun _ hx => hx.canonicalise
  endpoints := h.endpoints.sortBy _
  ports := h.ports.sortBy_map fun _ hx => hx.canonicalise
  fencedSessions := (length_sortBy _).trans_le h.fencedSessions
  fencedObjects := (length_sortBy _).trans_le h.fencedObjects

/-! ### Nothing is read of a part -/

section Stability

variable (limits : Limits)

instance : Stable decodeClaim := by unfold decodeClaim; infer_instance
instance : Stable (decodeClaims limits) := by unfold decodeClaims; infer_instance
instance : Stable (decodeAttachment limits) := by unfold decodeAttachment; infer_instance
instance : Stable (decodeConflict limits) := by unfold decodeConflict; infer_instance
instance : Stable (decodePort limits) := by unfold decodePort; infer_instance
instance : Stable (decodeObject limits) := by unfold decodeObject; infer_instance
instance : Stable (decodeEndpoint limits) := by unfold decodeEndpoint; infer_instance
instance : Stable decodeSummary := by unfold decodeSummary; infer_instance
instance : Stable decodeFencedSession := by unfold decodeFencedSession; infer_instance
instance : Stable decodeFencedObject := by unfold decodeFencedObject; infer_instance

instance : Stable decodeDigest := by
  have hmatch : ∀ digest : Option Digest256,
      Stable (digest.elim failure pure : Decoder Digest256) := by
    intro digest
    cases digest <;> simp only [Option.elim] <;> infer_instance
  have heq : decodeDigest = bytes 32 >>= fun raw => (toDigest raw).elim failure pure := by
    unfold decodeDigest
    congr 1
    funext raw
    cases toDigest raw <;> rfl
  rw [heq]
  infer_instance

instance : Stable (readSnapshot limits) := by unfold readSnapshot; infer_instance

end Stability

theorem TopologySnapshot.encode_eq (h : (Encoder.run (encodeSnapshot snapshot true {})).ok = true) :
    snapshot.encode = wire (encodeSnapshot snapshot true {}) :=
  Encoder.take_run _ h

/-- A snapshot of one endpoint with an occupied port, assembled by hand. -/
def handmadeSnapshot : TopologySnapshot where
  registry := ⟨⟨0, 1⟩⟩
  summary := {}
  objects := []
  endpoints := [⟨⟨⟨0, 2⟩⟩, ⟨1⟩, [115, 119], [], 4, {}⟩]
  ports := [⟨⟨⟨⟨0, 2⟩⟩, 0⟩, .attached, {},
    [⟨⟨⟨⟨0, 3⟩⟩, 0⟩, ⟨⟨⟨0, 2⟩⟩, 0⟩, 0, 1, {}, true, true, false, []⟩], []⟩]
  fencedSessions := []
  fencedObjects := []
  provenanceDigest := Vector.replicate 32 0

theorem readable_handmadeSnapshot : handmadeSnapshot.Readable {} where
  formatVersion := rfl
  objects := ⟨by decide, by simp [handmadeSnapshot]⟩
  endpoints := by
    refine ⟨by decide, ?_⟩
    simp only [handmadeSnapshot, List.forall_mem_singleton]
    exact ⟨by decide, by decide, ⟨by decide, by decide⟩, by decide⟩
  ports := by
    refine ⟨by decide, ?_⟩
    simp only [handmadeSnapshot, List.forall_mem_singleton]
    refine ⟨⟨by decide, by decide⟩, by decide, ⟨by decide, ?_⟩, ⟨by decide, by simp⟩⟩
    simp only [List.forall_mem_singleton]
    exact ⟨by decide, by decide, by simp⟩
  fencedSessions := by decide
  fencedObjects := by decide

/-- The same snapshot under another format version, with an endpoint of more ports than the limit,
and with an endpoint whose ports have a larger capacity than the limit. -/
def handmadeVersion : TopologySnapshot := { handmadeSnapshot with formatVersion := 2 }

def handmadePorts : TopologySnapshot :=
  { handmadeSnapshot with endpoints := [⟨⟨⟨0, 2⟩⟩, ⟨1⟩, [115, 119], [], 4097, {}⟩] }

def handmadeCapacity : TopologySnapshot :=
  { handmadeSnapshot with
    endpoints := [⟨⟨⟨0, 2⟩⟩, ⟨1⟩, [115, 119], [], 4, { maxSimultaneousAttachments := 65 }⟩] }

end CableRegistry
