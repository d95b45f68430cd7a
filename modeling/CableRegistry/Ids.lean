import CableRegistry.Lib.Order

/-!
# Identities and ordinals

The identifiers of the registry and the small records made of them.  All of them
are compared field by field in declaration order, which is what a defaulted
three-way comparison does; the maps of the registry iterate in these orders.

The ordinals (port and side indices, slots, incarnations, generations) are the
machine integers they wrap.
-/

open Std

namespace CableRegistry

/-- A 128 bit opaque identifier. -/
structure Id128 where
  hi : UInt64 := 0
  lo : UInt64 := 0
  deriving Repr, DecidableEq, Inhabited

namespace Id128

def isNil (id : Id128) : Bool := id.hi == 0 && id.lo == 0

def hexDigit (nibble : Nat) : Char := "0123456789abcdef".toList.getD nibble '0'

/-- The lowercase 32 character hexadecimal form: the high half first, each half most
significant nibble first. -/
def toHex (id : Id128) : String :=
  String.ofList ((List.range 32).map fun index =>
    let shift := 60 - (index % 16) * 4
    let half := if index < 16 then id.hi else id.lo
    hexDigit ((half >>> UInt64.ofNat shift) &&& 0xF).toNat)

instance : Ord Id128 := ⟨compareLex (compareOn hi) (compareOn lo)⟩

instance : TransOrd Id128 := inferInstanceAs (TransCmp (compareLex (compareOn hi) (compareOn lo)))

instance : LawfulEqOrd Id128 := lawfulEqCmp_compareLex (by
  rintro ⟨a, b⟩ ⟨c, d⟩ h h'
  simp_all)

end Id128

/-- A draw of the random engine as an identity; a nil identity is never valid. -/
def randomId128 (draw : Id128) : Id128 := if draw.isNil then { draw with lo := 1 } else draw

theorem isNil_randomId128 (draw : Id128) : (randomId128 draw).isNil = false := by
  unfold randomId128
  split
  · simp [Id128.isNil]
  · rename_i h
    exact Bool.eq_false_of_not_eq_true h

/-- What a strongly typed identifier identifies. -/
inductive IdTag where
  | object | endpoint | source | evidence | registry

/-- A strongly typed view over an `Id128`: identifiers of different tags are of
different types. -/
structure StrongId (tag : IdTag) where
  value : Id128 := {}
  deriving Repr, DecidableEq, Inhabited

namespace StrongId

variable {tag : IdTag}

def fromParts (hi lo : UInt64) : StrongId tag := ⟨⟨hi, lo⟩⟩

def isNil (id : StrongId tag) : Bool := id.value.isNil

def toHex (id : StrongId tag) : String := id.value.toHex

instance : Ord (StrongId tag) := ⟨compareOn value⟩

instance : TransOrd (StrongId tag) := inferInstanceAs (TransCmp (compareOn value))

instance : LawfulEqOrd (StrongId tag) where
  compare_self := by
    intro a
    exact (OrdMap.compare_eq_iff (a := a.value)).mpr rfl
  eq_of_compare := by
    rintro ⟨a⟩ ⟨b⟩ h
    exact congrArg StrongId.mk (OrdMap.compare_eq_iff.mp h)

end StrongId

abbrev ObjectId := StrongId .object
abbrev EndpointId := StrongId .endpoint
abbrev SourceId := StrongId .source
abbrev EvidenceId := StrongId .evidence
abbrev RegistryId := StrongId .registry

abbrev PortIndex := UInt32
abbrev SideIndex := UInt32
abbrev AttachmentSlot := UInt32
abbrev Incarnation := UInt64
abbrev Generation := UInt64
abbrev ObjectIncarnation := UInt64

/-- Nanoseconds since the Unix epoch. -/
abbrev Timestamp := Int64

/-- Text of the source is a sequence of bytes. -/
abbrev Text := List UInt8

/-- A port of an endpoint. -/
structure PortRef where
  endpoint : EndpointId := {}
  index : PortIndex := 0
  deriving Repr, DecidableEq, Inhabited

/-- One connector position of one physical object. -/
structure ObjectSideRef where
  object : ObjectId := {}
  side : SideIndex := 0
  deriving Repr, DecidableEq, Inhabited

/-- A source incarnation pair: the unit that is fenced, and the unit that owns a
monotonic generation stream. -/
structure SourceIncarnationKey where
  source : SourceId := {}
  incarnation : Incarnation := 0
  deriving Repr, DecidableEq, Inhabited

instance : Ord PortRef := ⟨compareLex (compareOn PortRef.endpoint) (compareOn PortRef.index)⟩

instance : TransOrd PortRef :=
  inferInstanceAs (TransCmp (compareLex (compareOn PortRef.endpoint) (compareOn PortRef.index)))

instance : LawfulEqOrd PortRef := lawfulEqCmp_compareLex (by
  rintro ⟨a, b⟩ ⟨c, d⟩ h h'
  simp_all)

instance : Ord ObjectSideRef :=
  ⟨compareLex (compareOn ObjectSideRef.object) (compareOn ObjectSideRef.side)⟩

instance : TransOrd ObjectSideRef :=
  inferInstanceAs
    (TransCmp (compareLex (compareOn ObjectSideRef.object) (compareOn ObjectSideRef.side)))

instance : LawfulEqOrd ObjectSideRef := lawfulEqCmp_compareLex (by
  rintro ⟨a, b⟩ ⟨c, d⟩ h h'
  simp_all)

instance : Ord SourceIncarnationKey :=
  ⟨compareLex (compareOn SourceIncarnationKey.source) (compareOn SourceIncarnationKey.incarnation)⟩

instance : TransOrd SourceIncarnationKey :=
  inferInstanceAs (TransCmp (compareLex (compareOn SourceIncarnationKey.source)
    (compareOn SourceIncarnationKey.incarnation)))

instance : LawfulEqOrd SourceIncarnationKey := lawfulEqCmp_compareLex (by
  rintro ⟨a, b⟩ ⟨c, d⟩ h h'
  simp_all)

end CableRegistry
