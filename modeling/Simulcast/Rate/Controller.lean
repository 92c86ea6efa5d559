import Simulcast.Rate.Regulator

/-!
The rate controller a sender consults: either a regulator, or a script that
answers every question from a table and ignores what it is told. The script's
table can be changed at any time, so it stands for any controller's answers.
-/

namespace Simulcast

structure RateScript where
  /-- The target given for any feedback; without one the network's own. -/
  target : Option UInt32 := none
  frameRate : UInt32 := 0
  drop : Bool := false
  sentBitrate : UInt32 := 0
  sentFrameRate : UInt32 := 0
  deriving DecidableEq, Repr

/-- Changes to a script; what is absent stays. -/
structure RateScript.Patch where
  target : Option (Option UInt32) := none
  frameRate : Option UInt32 := none
  drop : Option Bool := none
  sentBitrate : Option UInt32 := none
  sentFrameRate : Option UInt32 := none
  deriving DecidableEq, Repr

def RateScript.patch (s : RateScript) (p : RateScript.Patch) : RateScript where
  target := p.target.getD s.target
  frameRate := p.frameRate.getD s.frameRate
  drop := p.drop.getD s.drop
  sentBitrate := p.sentBitrate.getD s.sentBitrate
  sentFrameRate := p.sentFrameRate.getD s.sentFrameRate

inductive RateController where
  | scripted (script : RateScript)
  | regulated (regulator : Regulator)
  deriving Repr

/-- What a rate controller was asked, and its answer. -/
inductive RateCall where
  | configured (limits : EncodingLimits)
  | fed (bitrate : UInt32) (lossRate : UInt8) (roundTrip : Millis) (target : UInt32)
  | frameRate (answer : UInt32)
  | drop (answer : Bool)
  | dropping (on : Bool)
  | accounted (image : EncodedImage)
  | sentBitrate (answer : UInt32)
  | sentFrameRate (answer : UInt32)
  deriving DecidableEq, Repr

namespace RateController

def patch (p : RateScript.Patch) : RateController → RateController
  | .scripted s => .scripted (s.patch p)
  | .regulated r => .regulated r

def configure (limits : EncodingLimits) : RateController → RateController
  | .scripted s => .scripted s
  | .regulated r => .regulated (r.configure limits)

def feed (bitrate : UInt32) (lossRate : UInt8) (roundTrip : Millis) :
    RateController → RateController × UInt32
  | .scripted s => (.scripted s, s.target.getD bitrate)
  | .regulated r =>
      let (r, target) := r.feed bitrate lossRate roundTrip
      (.regulated r, target)

/-- The estimated rate of incoming frames, zero while unknown. -/
def frameRate (now : Millis) : RateController → RateController × UInt32
  | .scripted s => (.scripted s, s.frameRate)
  | .regulated r =>
      let (r, rate) := r.frameRate now
      (.regulated r, rate)

/-- Takes in a frame and says whether to drop it. -/
def dropFrame (now : Millis) : RateController → RateController × Bool
  | .scripted s => (.scripted s, s.drop)
  | .regulated r =>
      let (r, drop) := r.dropFrame now now
      (.regulated r, drop)

def enableDropping (on : Bool) : RateController → RateController
  | .scripted s => .scripted s
  | .regulated r => .regulated (r.enableDropping on)

def account (now : Millis) (image : EncodedImage) : RateController → RateController
  | .scripted s => .scripted s
  | .regulated r => .regulated (r.account now image.size image.timestamp)

def sentBitrate (now : Millis) : RateController → RateController × UInt32
  | .scripted s => (.scripted s, s.sentBitrate)
  | .regulated r =>
      let (r, rate) := r.sentBitrate now
      (.regulated r, rate)

def sentFrameRate (now : Millis) : RateController → RateController × UInt32
  | .scripted s => (.scripted s, s.sentFrameRate)
  | .regulated r =>
      let (r, rate) := r.sentFrameRate now
      (.regulated r, rate)

end RateController

end Simulcast
