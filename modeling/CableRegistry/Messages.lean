import CableRegistry.Codec
import CableRegistry.Protocol

/-!
# Failures and greetings

The two payloads every connection needs, whatever it is used for: a failure, which carries an error
to the client, and the greeting of the registry.  Both write a text under `maxStringBytes`, and
both are read under the same bound.
-/

namespace CableRegistry

/-! ### Failures -/

namespace ErrorCode

def raw : ErrorCode → UInt16
  | ok => 0
  | invalidArgument => 1
  | notFound => 2
  | capacityExceeded => 3
  | conflict => 4
  | fenced => 5
  | unsupportedVersion => 6
  | persistenceFailure => 7
  | corruptStore => 8
  | truncatedStore => 9
  | ioFailure => 10
  | protocolViolation => 11
  | closed => 12
  | permissionDenied => 13
  | internal => 14

/-- The conversion of a value that was checked. -/
def ofRaw : UInt16 → ErrorCode
  | 0 => ok
  | 1 => invalidArgument
  | 2 => notFound
  | 3 => capacityExceeded
  | 4 => conflict
  | 5 => fenced
  | 6 => unsupportedVersion
  | 7 => persistenceFailure
  | 8 => corruptStore
  | 9 => truncatedStore
  | 10 => ioFailure
  | 11 => protocolViolation
  | 12 => closed
  | 13 => permissionDenied
  | _ => internal

theorem ofRaw_raw (code : ErrorCode) : ofRaw code.raw = code := by
  cases code <;> rfl

/-- The only code that a failure cannot carry. -/
theorem raw_le_iff (code : ErrorCode) : code.raw ≤ permissionDenied.raw ↔ code ≠ internal := by
  cases code <;> decide

end ErrorCode

/-- An error as the peer worded it. -/
structure ReportedError where
  code : ErrorCode
  message : Text
  deriving Repr, DecidableEq

def encodeFailure (error : Error) (limits : Limits) : List Write :=
  [.u16 error.code.raw, .string (textOf error.message) limits.maxStringBytes]

def decodeFailure (limits : Limits) : Decoder ReportedError := do
  let code ← Decoder.u16
  let message ← Decoder.string limits.maxStringBytes
  guard (code ≤ ErrorCode.permissionDenied.raw)
  pure ⟨ErrorCode.ofRaw code, message⟩

/-! ### Greetings -/

def kVersionMajor : UInt32 := 1
def kVersionMinor : UInt32 := 0
def kVersionPatch : UInt32 := 0

def versionString : String :=
  toString kVersionMajor.toNat ++ "." ++ toString kVersionMinor.toNat ++ "." ++
    toString kVersionPatch.toNat

def versionNumber : UInt32 := kVersionMajor * 10000 + kVersionMinor * 100 + kVersionPatch

/-- The greeting a registry sends when a connection opens. -/
structure Hello where
  protocolVersion : UInt32 := 0
  libraryVersion : UInt32 := 0
  registry : RegistryId := {}
  maxPayloadBytes : UInt32 := 0
  shutdownAllowed : Bool := false
  identity : Text := []
  deriving Repr, DecidableEq

def helloWrites (value : Hello) (limits : Limits) : List Write :=
  [.u32 value.protocolVersion, .u32 value.libraryVersion, .id128 value.registry.value,
    .u32 value.maxPayloadBytes, .boolean value.shutdownAllowed,
    .string value.identity limits.maxStringBytes]

def encodeHello (value : Hello) (limits : Limits) : List UInt8 :=
  (Encoder.run (helloWrites value limits)).take

def readHello (limits : Limits) : Decoder Hello := do
  let protocolVersion ← Decoder.u32
  let libraryVersion ← Decoder.u32
  let registry ← Decoder.strongId
  let maxPayloadBytes ← Decoder.u32
  let shutdownAllowed ← Decoder.boolean
  let identity ← Decoder.string limits.maxStringBytes
  pure ⟨protocolVersion, libraryVersion, registry, maxPayloadBytes, shutdownAllowed, identity⟩

def decodeHello (data : List UInt8) (limits : Limits) : Option Hello :=
  Decoder.whole (readHello limits) data

end CableRegistry
