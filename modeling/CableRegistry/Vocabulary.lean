import CableRegistry.Ids

/-!
# The vocabulary of evidence

The descriptors, capabilities, authorities, limits and evidence records a
publisher hands to the registry, and the typed outcomes it gets back.

An enumeration that a publisher supplies is a record over its underlying
integer, because a C++ enumeration with a fixed underlying type can hold any
value of it: `MediaClass`, `ConnectorClass`, `ObjectKind`, `EndpointKind`,
`ProvenanceClass`, `LifecycleAction` and `AuthorityClass` are of this kind, and
`declared` says which values the enumeration names.  An enumeration that only
the registry produces is an inductive type.
-/

open Std

namespace CableRegistry

def kStoreFormatVersion : UInt32 := 1

/-! ### Errors -/

inductive ErrorCode where
  | ok | invalidArgument | notFound | capacityExceeded | conflict | fenced | unsupportedVersion
  | persistenceFailure | corruptStore | truncatedStore | ioFailure | protocolViolation | closed
  | permissionDenied | internal
  deriving Repr, DecidableEq

/-- A failure with a human readable explanation. -/
structure Error where
  code : ErrorCode
  message : String
  deriving Repr, DecidableEq

/-- Either a value or an `Error`. -/
abbrev Outcome (α : Type) := Except Error α

def makeError {α : Type} (code : ErrorCode) (message : String) : Outcome α := .error ⟨code, message⟩

/-- Fails with `e` when the condition holds. -/
def refuseIf {ε : Type} (c : Bool) (e : ε) : Except ε Unit := if c then .error e else .ok ()

theorem ok_of_isOk {ε : Type} {x : Except ε Unit} (h : x.isOk = true) : x = .ok () := by
  cases x with
  | ok _ => rfl
  | error error => exact absurd h (by simp [Except.isOk, Except.toBool])

theorem error_of_isOk {ε : Type} {x : Except ε Unit} (h : x.isOk = false) :
    ∃ error, x = .error error := by
  cases x with
  | ok _ => exact absurd h (by simp [Except.isOk, Except.toBool])
  | error error => exact ⟨error, rfl⟩

/-- A run of fallible steps succeeds when its first step and the rest do. -/
theorem foldlM_cons_eq_ok {ε α σ : Type} {f : σ → α → Except ε σ} {s s' : σ} {a : α} {l : List α} :
    (a :: l).foldlM f s = .ok s' ↔ ∃ s₁, f s a = .ok s₁ ∧ l.foldlM f s₁ = .ok s' := by
  rw [List.foldlM_cons]
  cases f s a <;> simp [bind, Except.bind]

variable {c : Bool}

@[simp] theorem refuseIf_eq_ok {ε : Type} {e : ε} : refuseIf c e = .ok () ↔ c = false := by
  cases c <;> simp [refuseIf]

@[simp] theorem refuseIf_bind_eq_ok {ε α : Type} {e : ε} {f : Unit → Except ε α} {y : α} :
    (refuseIf c e >>= f) = .ok y ↔ c = false ∧ f () = .ok y := by
  cases c <;> simp [refuseIf, bind, Except.bind]

theorem refuseIf_eq_error {ε : Type} {e e' : ε} :
    refuseIf c e = .error e' ↔ c = true ∧ e = e' := by
  cases c <;> simp [refuseIf]

theorem refuseIf_bind_eq_error {ε α : Type} {e e' : ε} {f : Unit → Except ε α} :
    (refuseIf c e >>= f) = .error e' ↔ c = true ∧ e = e' ∨ c = false ∧ f () = .error e' := by
  cases c <;> simp [refuseIf, bind, Except.bind]

/-! ### Capabilities -/

structure MediaClass where
  raw : UInt8
  deriving Repr, DecidableEq

structure ConnectorClass where
  raw : UInt8
  deriving Repr, DecidableEq

structure ObjectKind where
  raw : UInt8
  deriving Repr, DecidableEq

structure EndpointKind where
  raw : UInt8
  deriving Repr, DecidableEq

namespace MediaClass
def unknown : MediaClass := ⟨0⟩
def other : MediaClass := ⟨8⟩
def declared (m : MediaClass) : Bool := m.raw ≤ other.raw
end MediaClass

namespace ConnectorClass
def unknown : ConnectorClass := ⟨0⟩
def other : ConnectorClass := ⟨18⟩
def declared (c : ConnectorClass) : Bool := c.raw ≤ other.raw
end ConnectorClass

namespace ObjectKind
def unknown : ObjectKind := ⟨0⟩
def other : ObjectKind := ⟨8⟩
def declared (k : ObjectKind) : Bool := k.raw ≤ other.raw
end ObjectKind

namespace EndpointKind
def unknown : EndpointKind := ⟨0⟩
def other : EndpointKind := ⟨7⟩
def declared (k : EndpointKind) : Bool := k.raw ≤ other.raw
end EndpointKind

abbrev LaneCount := UInt16

structure NominalCapability where
  media : MediaClass := .unknown
  connector : ConnectorClass := .unknown
  lanes : LaneCount := 0
  nominalLaneRateKbps : UInt64 := 0
  nominalTotalKbps : UInt64 := 0
  nominalReachMm : UInt64 := 0
  reachDeclared : Bool := false
  capabilityCode : Text := []
  deriving Repr, DecidableEq

structure PortCapability where
  maxSimultaneousAttachments : UInt32 := 1
  acceptedConnector : ConnectorClass := .unknown
  acceptedMedia : MediaClass := .unknown
  laneCapacity : LaneCount := 0
  deriving Repr, DecidableEq

/-! ### Descriptors -/

structure ObjectSideDescriptor where
  connector : ConnectorClass := .unknown
  media : MediaClass := .unknown
  lanes : LaneCount := 0
  deriving Repr, DecidableEq

structure ObjectDescriptor where
  id : ObjectId := {}
  kind : ObjectKind := .unknown
  physicalLabel : Text := []
  serialLike : Text := []
  administrativeLocation : Text := []
  sides : List ObjectSideDescriptor := []
  capability : NominalCapability := {}
  deriving Repr, DecidableEq

structure EndpointDescriptor where
  id : EndpointId := {}
  kind : EndpointKind := .unknown
  name : Text := []
  administrativeLocation : Text := []
  portCount : UInt32 := 0
  defaultPortCapability : PortCapability := {}
  deriving Repr, DecidableEq

/-! ### Authority -/

/-- How much weight a claim carries when two sources disagree. -/
structure AuthorityClass where
  raw : UInt8
  deriving Repr, DecidableEq

namespace AuthorityClass
def speculative : AuthorityClass := ⟨0⟩
def imported : AuthorityClass := ⟨1⟩
def observed : AuthorityClass := ⟨2⟩
def declaredClass : AuthorityClass := ⟨3⟩
def authoritative : AuthorityClass := ⟨4⟩
def declared (a : AuthorityClass) : Bool := a.raw ≤ authoritative.raw
end AuthorityClass

/-- The class is the primary key and the rank breaks ties inside one class. -/
structure Authority where
  authorityClass : AuthorityClass := .speculative
  rank : UInt32 := 0
  deriving Repr, DecidableEq

namespace Authority

/-- The position of an authority in the order, as a number. -/
def position (a : Authority) : Nat := a.authorityClass.raw.toNat * 2 ^ 32 + a.rank.toNat

theorem position_injective : Function.Injective position := by
  rintro ⟨⟨c⟩, r⟩ ⟨⟨c'⟩, r'⟩ h
  have hr := r.toNat_lt
  have hr' := r'.toNat_lt
  simp only [position] at h
  have hc : c = c' := UInt8.toNat_inj.mp (by omega)
  have hrr : r = r' := UInt32.toNat_inj.mp (by subst hc; omega)
  rw [hc, hrr]

/-- Authorities are compared by class and then by rank. -/
instance : LinearOrder Authority :=
  LinearOrder.lift' position position_injective

end Authority

structure SourceDescriptor where
  id : SourceId := {}
  name : Text := []
  authority : Authority := {}
  administrativeDomain : Text := []
  deriving Repr, DecidableEq

/-- How a source learned the fact it publishes. -/
structure ProvenanceClass where
  raw : UInt8
  deriving Repr, DecidableEq

namespace ProvenanceClass
def unknown : ProvenanceClass := ⟨0⟩
def synthetic : ProvenanceClass := ⟨6⟩
def declared (p : ProvenanceClass) : Bool := p.raw ≤ synthetic.raw
end ProvenanceClass

/-- The lifecycle value one source asserts. -/
structure LifecycleAction where
  raw : UInt8
  deriving Repr, DecidableEq

namespace LifecycleAction
def present : LifecycleAction := ⟨0⟩
def quarantined : LifecycleAction := ⟨1⟩
def removed : LifecycleAction := ⟨2⟩
def retired : LifecycleAction := ⟨3⟩
def declared (a : LifecycleAction) : Bool := a.raw ≤ retired.raw
end LifecycleAction

/-! ### Limits -/

/-- The bounded resource policy. -/
structure Limits where
  maxObjects : UInt32 := 1000000
  maxEndpoints : UInt32 := 100000
  maxPortsPerEndpoint : UInt32 := 4096
  maxSidesPerObject : UInt32 := 64
  maxSources : UInt32 := 4096
  maxPortSimultaneousAttachments : UInt32 := 64
  maxClaimRecordsPerPort : UInt32 := 4096
  maxHistoryPerKey : UInt32 := 8
  maxOverriddenReported : UInt32 := 16
  maxStringBytes : UInt32 := 256
  maxCapabilityCodeBytes : UInt32 := 64
  maxRevalidateClaims : UInt32 := 4096
  maxEvidenceBatch : UInt32 := 4096
  maxFramePayloadBytes : UInt32 := 1048576
  maxSnapshotEntries : UInt32 := 4000000
  maxRefusalAudit : UInt32 := 1024
  maxHistoryEvents : UInt32 := 4096
  deriving Repr, DecidableEq

def requirePositive (value : UInt32) (name : String) : Outcome Unit :=
  refuseIf (value == 0) ⟨.invalidArgument, "limits." ++ name ++ " must be greater than zero"⟩

def validateLimits (limits : Limits) : Outcome Unit := do
  requirePositive limits.maxObjects "max_objects"
  requirePositive limits.maxEndpoints "max_endpoints"
  requirePositive limits.maxPortsPerEndpoint "max_ports_per_endpoint"
  requirePositive limits.maxSidesPerObject "max_sides_per_object"
  requirePositive limits.maxSources "max_sources"
  requirePositive limits.maxPortSimultaneousAttachments "max_port_simultaneous_attachments"
  requirePositive limits.maxClaimRecordsPerPort "max_claim_records_per_port"
  requirePositive limits.maxHistoryPerKey "max_history_per_key"
  requirePositive limits.maxOverriddenReported "max_overridden_reported"
  requirePositive limits.maxStringBytes "max_string_bytes"
  requirePositive limits.maxCapabilityCodeBytes "max_capability_code_bytes"
  requirePositive limits.maxRevalidateClaims "max_revalidate_claims"
  requirePositive limits.maxEvidenceBatch "max_evidence_batch"
  requirePositive limits.maxFramePayloadBytes "max_frame_payload_bytes"
  requirePositive limits.maxSnapshotEntries "max_snapshot_entries"
  requirePositive limits.maxRefusalAudit "max_refusal_audit"
  requirePositive limits.maxHistoryEvents "max_history_events"
  refuseIf (limits.maxStringBytes > (1 : UInt32) <<< 20)
    ⟨.invalidArgument, "limits.max_string_bytes exceeds the 1 MiB ceiling"⟩
  refuseIf (limits.maxFramePayloadBytes > (64 : UInt32) <<< 20)
    ⟨.invalidArgument, "limits.max_frame_payload_bytes exceeds the 64 MiB ceiling"⟩
  refuseIf (limits.maxPortSimultaneousAttachments > 4096)
    ⟨.invalidArgument, "limits.max_port_simultaneous_attachments exceeds the 4096 attachment ceiling"⟩

/-- The limits that `validateLimits` accepts. -/
def Limits.Valid (limits : Limits) : Prop := validateLimits limits = .ok ()

instance (limits : Limits) : Decidable limits.Valid :=
  inferInstanceAs (Decidable (validateLimits limits = .ok ()))

example : ({} : Limits).Valid := by decide

end CableRegistry
