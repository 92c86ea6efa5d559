/-!
Send codec descriptions and the quantities read off them. A description is
plain data; `Codec.fault?` names the first rule it breaks, and the other
functions give what the rest of the library needs to know of an accepted one:
how many streams it has, how many temporal layers, and where its bitrate
starts.
-/

namespace Simulcast

/-- Width and height of a picture in pixels. -/
structure Resolution where
  width : UInt32
  height : UInt32
  deriving DecidableEq, Repr, Inhabited

inductive CodecKind where
  | vp8
  | vp9
  | h264
  | generic
  deriving DecidableEq, Repr

inductive ContentMode where
  | realtime
  | screenshare
  deriving DecidableEq, Repr

/-- Settings that exist for one family only. -/
inductive CodecOptions where
  | vp8 (temporalLayers : UInt8) (denoise : Bool)
  | vp9 (temporalLayers spatialLayers : UInt8)
  | h264 (keyFrameInterval : UInt32)
  | generic
  deriving DecidableEq, Repr

/-- A send codec. Bitrates are in kilobits per second, and a maximum of zero
means no maximum. -/
structure Codec where
  kind : CodecKind := .generic
  name : String := "generic"
  payloadType : UInt8 := 96
  resolution : Resolution := ⟨320, 240⟩
  startBitrate : UInt32 := 300
  maxBitrate : UInt32 := 2000
  minBitrate : UInt32 := 30
  maxFrameRate : UInt32 := 30
  /-- Zero streams are accepted and count as one. -/
  simulcastStreams : UInt8 := 0
  mode : ContentMode := .realtime
  options : CodecOptions := .generic
  deriving DecidableEq, Repr

inductive CodecFault where
  | emptyResolution
  | zeroFrameRate
  | tooManyStreams
  | minAboveMax
  /-- The registry turned the codec down although its settings are in order. -/
  | refused
  deriving DecidableEq, Repr

def CodecFault.message : CodecFault → String
  | .emptyResolution => "resolution must not be empty"
  | .zeroFrameRate => "max framerate must not be zero"
  | .tooManyStreams => "too many simulcast streams"
  | .minAboveMax => "min bitrate exceeds max bitrate"
  | .refused => "refused by registry"

namespace Codec

def maxStreams : UInt8 := 4

/-- The first rule the settings break, if they break one. -/
def fault? (c : Codec) : Option CodecFault :=
  if c.resolution.width = 0 ∨ c.resolution.height = 0 then some .emptyResolution
  else if c.maxFrameRate = 0 then some .zeroFrameRate
  else if c.simulcastStreams > maxStreams then some .tooManyStreams
  else if c.maxBitrate > 0 ∧ c.minBitrate > c.maxBitrate then some .minAboveMax
  else none

/-- The number of streams, at least one. -/
def streamCount (c : Codec) : Nat :=
  max 1 c.simulcastStreams.toNat

/-- The number of temporal layers rate control has to know of, at least one.
Families without temporal scalability have a single layer. -/
def temporalLayers (c : Codec) : UInt8 :=
  match c.options with
  | .vp8 layers _ => max layers 1
  | .vp9 layers _ => max layers 1
  | .h264 _ => 1
  | .generic => 1

/-- The start bitrate, raised to the minimum and then cut to the maximum. -/
def clampedStartBitrate (c : Codec) : UInt32 :=
  let start := max c.startBitrate c.minBitrate
  if c.maxBitrate = 0 then start else min start c.maxBitrate

def clamped (c : Codec) : Codec :=
  { c with startBitrate := c.clampedStartBitrate }

/-- Layered screen content already adapts its rate by leaving layers out, so
frames must not be dropped on top of that. -/
def forbidsDropping (c : Codec) : Bool :=
  decide (c.temporalLayers > 1) && c.mode == .screenshare

end Codec

/-- Kilobits to bits per second, held at the largest word when out of range. -/
def bitsPerSecond (kilobits : UInt32) : UInt32 :=
  UInt32.ofNat (min (kilobits.toNat * 1000) (UInt32.size - 1))

end Simulcast
