import Simulcast.Encoder.Fault
import Simulcast.Picture.Frame
import Simulcast.Schedule

/-!
What passes between a sender and an encoder: the calls an encoder answers, the
rate parameters it is steered with and the images it delivers.

A frame driven encoder is handed every frame. An encoder with an internal
source captures its own input, so rates and key frame requests have to be
pushed to it.
-/

namespace Simulcast

/-- How an encoder is steered. Always replaced as a whole. -/
structure RateParameters where
  /-- Bits per second. -/
  targetBitrate : UInt32 := 0
  /-- Lost packets, scaled to 0 … 255. -/
  lossRate : UInt8 := 0
  roundTrip : Millis := 0
  /-- Frames per second; zero while there is no estimate. -/
  frameRate : UInt32 := 0
  deriving DecidableEq, Repr

/-- What the application says about a frame, by codec family. -/
inductive SideInfo where
  | vp8 (pictureId : Option UInt16) (stream : UInt8) (temporal : Option UInt8)
      (nonReference : Bool)
  | vp9 (pictureId : Option UInt16) (spatial temporal : Option UInt8)
  | h264 (stream : UInt8)
  | generic (stream : UInt8)
  deriving DecidableEq, Repr

def SideInfo.kind : SideInfo → CodecKind
  | .vp8 _ _ _ _ => .vp8
  | .vp9 _ _ _ => .vp9
  | .h264 _ => .h264
  | .generic _ => .generic

/-- The output of an encoder for one stream. -/
structure EncodedImage where
  kind : FrameKind
  size : Nat
  timestamp : UInt32
  resolution : Resolution
  stream : Nat
  deriving DecidableEq, Repr

inductive EncoderCall where
  /-- Says that output goes to the owner's callback. -/
  | connect
  | init (codec : Codec) (cores : UInt32) (maxPayload : Nat)
  | release
  | encode (frame : Frame) (kinds : List FrameKind) (info : Option SideInfo)
  /-- Tells of a frame that was dropped before it. -/
  | skip
  | configure (rates : RateParameters)
  /-- Asks an internal source for a frame right away. -/
  | request (kinds : List FrameKind)
  deriving DecidableEq, Repr

end Simulcast
