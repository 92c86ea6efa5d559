import Simulcast.Encoder.Synthetic
import Simulcast.Rate.Controller
import Simulcast.Registry.Error

/-!
What can be asked of a sender, and how it answers. A `Call` is an entry point
that may have to wait for the encoder; an `Action` is a call or something else
that may be done from inside the sender's own callbacks; an `Instruction` is
an action, or it sets what is done in a callback.
-/

namespace Simulcast

inductive SendError where
  | uninitialized
  | invalidCodec (fault : CodecFault)
  | wrongResolution (expected : Option Resolution) (actual : Resolution)
  | notReadable (fault : CopyFault)
  | registry (error : RegistryError)
  | stream (error : NoSuchStream)
  | encoder (fault : EncoderFault)
  deriving DecidableEq, Repr

/-- A resolution spelled out with its field names. -/
def Resolution.describe (r : Resolution) : String :=
  s!"Resolution \x7b width: {r.width.toNat}, height: {r.height.toNat} \x7d"

def Resolution.describe? : Option Resolution → String
  | some r => s!"Some({r.describe})"
  | none => "None"

namespace SendError

/-- An invalid codec is the caller's fault also when the registry finds it. -/
def ofRegistry : RegistryError → SendError
  | .invalidCodec fault => .invalidCodec fault
  | error => .registry error

/-- The negative status code. An encoder's failure keeps its own. -/
def code : SendError → Int32
  | .uninitialized => -7
  | .invalidCodec _ => -4
  | .wrongResolution _ _ => -4
  | .notReadable _ => -4
  | .registry _ => -6
  | .stream _ => -1
  | .encoder fault => fault.code

def message : SendError → String
  | .uninitialized => "no encoder is active"
  | .invalidCodec fault => s!"invalid codec settings: {fault.message}"
  | .wrongResolution expected actual =>
      s!"frame resolution {actual.describe} does not match the codec resolution "
        ++ Resolution.describe? expected
  | .notReadable _ => "failed to convert native frame"
  | .registry _ => "codec error"
  | .stream error => error.message
  | .encoder fault => fault.message

/-- The messages of what lies behind the error, nearest first. -/
def causes : SendError → List String
  | .notReadable fault => fault.reasons
  | .registry error => error.message :: error.causes
  | _ => []

end SendError

/-- What the network reports: bits per second, lost packets scaled to
0 … 255, and the round trip time. -/
structure Feedback where
  bitrate : UInt32
  lossRate : UInt8
  roundTrip : Millis
  deriving DecidableEq, Repr

inductive Call where
  | submit (frame : Frame) (info : Option SideInfo)
  | requestKey (stream : Nat)
  | feedback (report : Feedback)
  | register (codec : Codec) (cores : UInt32) (maxPayload : Nat)
  /-- Makes an encoder serve a payload type from its next registration on. -/
  | attach (payloadType : UInt8) (internalSource : Bool) (encoder : EncoderChoice)
  | detach (payloadType : UInt8)
  | enableDropping (on : Bool)
  deriving DecidableEq, Repr

inductive Action where
  | call (call : Call)
  | tick
  | untilDue
  | schedule
  | parameters
  | sendCodec
  | advance (delay : Millis)
  | setFaults (encoder : Nat) (patch : FaultPlan.Patch)
  | setScript (patch : RateScript.Patch)
  /-- Has the registry turn down the next registration that reaches it. -/
  | refuse (refusal : Refusal)
  deriving DecidableEq, Repr

/-- Something the application does to a sender. What it does in callbacks may
itself set what it does in callbacks. -/
inductive Instruction where
  | act (action : Action)
  /-- Sets what is done in the middle of every encode call of an encoder. -/
  | onEncode (encoder : Nat) (instructions : List Instruction)
  /-- Sets what is done for every image handed out. -/
  | onImage (instructions : List Instruction)
  deriving Repr

namespace Instruction

mutual

def decEq : (a b : Instruction) → Decidable (a = b)
  | .act a, .act b => decidable_of_iff (a = b) (by simp)
  | .onEncode m as, .onEncode n bs =>
      have := decEqList as bs
      decidable_of_iff (m = n ∧ as = bs) (by simp)
  | .onImage as, .onImage bs =>
      have := decEqList as bs
      decidable_of_iff (as = bs) (by simp)
  | .act _, .onEncode _ _ => isFalse nofun
  | .act _, .onImage _ => isFalse nofun
  | .onEncode _ _, .act _ => isFalse nofun
  | .onEncode _ _, .onImage _ => isFalse nofun
  | .onImage _, .act _ => isFalse nofun
  | .onImage _, .onEncode _ _ => isFalse nofun

def decEqList : (as bs : List Instruction) → Decidable (as = bs)
  | [], [] => isTrue rfl
  | [], _ :: _ => isFalse nofun
  | _ :: _, [] => isFalse nofun
  | a :: as, b :: bs =>
      have := decEq a b
      have := decEqList as bs
      decidable_of_iff (a = b ∧ as = bs) (by simp)

end

instance : DecidableEq Instruction := decEq

end Instruction

/-- How an accepted frame fared. -/
inductive Delivery where
  | encoded (kinds : List FrameKind)
  /-- Held back from a frame driven encoder while there is no target bitrate. -/
  | gated
  | dropped
  deriving DecidableEq, Repr

/-- What a tick found: the time left until the next report, and the bitrate
and frame rate reported if one was due. -/
structure TickResult where
  remaining : Millis
  report : Option (UInt32 × UInt32)
  deriving DecidableEq, Repr

inductive Reply where
  | done
  | failed (error : SendError)
  | submitted (delivery : Delivery)
  | ticked (result : TickResult)
  | time (millis : Millis)
  | number (n : UInt32)
  | kinds (kinds : List FrameKind)
  | rates (rates : RateParameters)
  | codec (codec : Option Codec)
  | absent
  /-- The call waits for the encoder and does not return. -/
  | blocked
  deriving DecidableEq, Repr

end Simulcast
