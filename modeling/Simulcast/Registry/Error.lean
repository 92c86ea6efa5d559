import Simulcast.Codec.Names
import Simulcast.Encoder.Fault

/-!
Why a registry could not do what it was asked.
-/

namespace Simulcast

inductive RegistryError where
  | invalidCodec (fault : CodecFault)
  | noEncoder (kind : CodecKind) (payloadType : UInt8)
  | initFailed (fault : EncoderFault)
  | unknownPayloadType (payloadType : UInt8)
  deriving DecidableEq, Repr

namespace RegistryError

def message : RegistryError → String
  | .invalidCodec fault => s!"invalid codec settings: {fault.message}"
  | .noEncoder kind payloadType =>
      s!"no encoder available for {kind.label} with payload type {payloadType.toNat}"
  | .initFailed _ => "failed to initialize encoder"
  | .unknownPayloadType payloadType =>
      s!"no external encoder registered for payload type {payloadType.toNat}"

/-- The messages of what lies behind the error, nearest first. -/
def causes : RegistryError → List String
  | .initFailed fault => [fault.message]
  | _ => []

end RegistryError

/-- A registration the registry turns down without looking at its encoders. -/
inductive Refusal where
  | invalidCodec
  | initTimeout
  | noEncoder
  deriving DecidableEq, Repr

def Refusal.error (codec : Codec) : Refusal → RegistryError
  | .invalidCodec => .invalidCodec .refused
  | .initTimeout => .initFailed .timeout
  | .noEncoder => .noEncoder codec.kind codec.payloadType

end Simulcast
