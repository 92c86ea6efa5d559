import Simulcast.Encoder.Interface
import Simulcast.Rate.LeakyBucket

/-!
Rate control for one sender. A regulator cuts the network's target to what the
codec allows, estimates the rate of incoming frames from their arrival times,
drops frames through a leaky bucket and keeps statistics of what was sent.

Both histories are lists with the oldest entry first. Whatever is older than
its window is forgotten when the history is looked at, and looking again at
the same time forgets nothing more. Ages and spans are exact differences of
times, which is what 64-bit arithmetic makes of them while the clock shows early
times only.
-/

namespace Simulcast

/-- What a newly registered codec tells rate control. Rates are in bits per
second, and a maximum of zero means no maximum. -/
structure EncodingLimits where
  maxBitrate : UInt32 := 0
  startBitrate : UInt32 := 0
  resolution : Resolution := ⟨0, 0⟩
  maxFrameRate : UInt32 := 0
  temporalLayers : UInt8 := 0
  maxPayload : Nat := 0
  deriving DecidableEq, Repr

def Codec.limits (c : Codec) (maxPayload : Nat) : EncodingLimits where
  maxBitrate := bitsPerSecond c.maxBitrate
  startBitrate := bitsPerSecond c.clampedStartBitrate
  resolution := c.resolution
  maxFrameRate := c.maxFrameRate
  temporalLayers := c.temporalLayers
  maxPayload := maxPayload

/-- One encoded image as the statistics see it. -/
structure SentSample where
  size : Nat
  timestamp : UInt32
  completed : Millis
  deriving DecidableEq, Repr

structure Regulator where
  limits : EncodingLimits := {}
  targetBitrate : UInt32 := 0
  lossRate : UInt8 := 0
  roundTrip : Millis := 0
  bucket : LeakyBucket := {}
  /-- When frames came in, oldest first. -/
  arrivals : List Millis := []
  /-- What was encoded, oldest first. -/
  sent : List SentSample := []
  deriving Repr

namespace Regulator

def arrivalCapacity : Nat := 90

/-- How far back arrivals count towards the frame rate. -/
def arrivalWindow : Millis := 2000

/-- How far back encoded images count towards the statistics. -/
def sentWindow : Millis := 1000

/-- Forgets histories, target and feedback. The codec's limits stay. -/
def reset (r : Regulator) : Regulator where
  limits := r.limits
  bucket := r.bucket.reset

/-- Starts over for a newly registered codec, at its start bitrate. -/
def configure (r : Regulator) (limits : EncodingLimits) : Regulator :=
  let r := r.reset
  { r with
    limits := limits
    targetBitrate := limits.startBitrate
    bucket := r.bucket.setTarget limits.startBitrate }

def allowed (r : Regulator) (bitrate : UInt32) : UInt32 :=
  if r.limits.maxBitrate = 0 then bitrate else min bitrate r.limits.maxBitrate

def feed (r : Regulator) (bitrate : UInt32) (lossRate : UInt8) (roundTrip : Millis) :
    Regulator × UInt32 :=
  let target := r.allowed bitrate
  ({ r with
      targetBitrate := target
      lossRate := lossRate
      roundTrip := roundTrip
      bucket := r.bucket.setTarget target }, target)

def recentArrivals (now : Millis) (arrivals : List Millis) : List Millis :=
  arrivals.dropWhile fun t => now - t > arrivalWindow

def recentSamples (now : Millis) (samples : List SentSample) : List SentSample :=
  samples.dropWhile fun s => now - s.completed ≥ sentWindow

/-- Frames per second over a history, rounded to nearest: the intervals
between its entries by the time they span. Zero if the time spanned is. -/
def arrivalRate (arrivals : List Millis) : UInt32 :=
  match arrivals.head?, arrivals.getLast? with
  | some oldest, some newest =>
      let span := newest - oldest
      let intervals : Int := (arrivals.length - 1 : Nat)
      if span ≤ 0 then 0 else UInt32.ofNat ((intervals * 1000 + span / 2) / span).toNat
  | _, _ => 0

/-- The estimated rate of incoming frames, zero while unknown. -/
def frameRate (r : Regulator) (now : Millis) : Regulator × UInt32 :=
  let recent := recentArrivals now r.arrivals
  ({ r with arrivals := recent }, arrivalRate recent)

/-- Adds an arrival; past the capacity the oldest one goes. -/
def arrive (r : Regulator) (now : Millis) : Regulator :=
  let arrivals := r.arrivals ++ [now]
  { r with
    arrivals := if arrivals.length > arrivalCapacity then arrivals.tail else arrivals }

/-- Takes in a frame and says whether to drop it. The clock is read as the frame
arrives, and again for the estimate. -/
def dropFrame (r : Regulator) (arrived now : Millis) : Regulator × Bool :=
  let (r, rate) := (r.arrive arrived).frameRate now
  let bucket := r.bucket.leak rate
  ({ r with bucket := bucket }, bucket.overfull)

def enableDropping (r : Regulator) (on : Bool) : Regulator :=
  { r with bucket := r.bucket.enable on }

def account (r : Regulator) (now : Millis) (size : Nat) (timestamp : UInt32) : Regulator :=
  { r with
    sent := recentSamples now r.sent ++ [⟨size, timestamp, now⟩]
    bucket := r.bucket.fill size }

def bytesOf (samples : List SentSample) : Nat := samples.foldl (fun bytes s => bytes + s.size) 0

/-- Bits per second over the samples of one statistics window, in 64-bit words
cut to 32 bits. -/
def bitrateOf (samples : List SentSample) : UInt32 :=
  (UInt64.ofNat (bytesOf samples) * 8 * 1000 / UInt64.ofNat sentWindow.toNat).toUInt32

def runs : List UInt32 → Nat
  | [] => 0
  | [_] => 1
  | a :: b :: rest => (if a = b then 0 else 1) + runs (b :: rest)

/-- Frames per second over the samples of one statistics window. The streams
of a frame share its timestamp, so a run of one timestamp is one frame. -/
def frameRateOf (samples : List SentSample) : UInt32 :=
  UInt32.ofNat (runs (samples.map (·.timestamp)) * 1000 / sentWindow.toNat)

def sentBitrate (r : Regulator) (now : Millis) : Regulator × UInt32 :=
  let recent := recentSamples now r.sent
  ({ r with sent := recent }, bitrateOf recent)

def sentFrameRate (r : Regulator) (now : Millis) : Regulator × UInt32 :=
  let recent := recentSamples now r.sent
  ({ r with sent := recent }, frameRateOf recent)

end Regulator

end Simulcast
