import Simulcast.Rate.Regulator

/-!
Everything a regulator can be asked, and runs of such requests. A request names
the times at which it reads the clock, so a run covers every clock as well.
-/

namespace Simulcast

namespace Regulator

inductive Request where
  | reset
  | configure (limits : EncodingLimits)
  | feed (bitrate : UInt32) (lossRate : UInt8) (roundTrip : Millis)
  | frameRate (now : Millis)
  /-- A frame comes in at `arrived`, and the rate is estimated at `now`. -/
  | dropFrame (arrived now : Millis)
  | enableDropping (on : Bool)
  | account (now : Millis) (size : Nat) (timestamp : UInt32)
  | sentBitrate (now : Millis)
  | sentFrameRate (now : Millis)
  deriving DecidableEq, Repr

inductive Answer where
  | done
  /-- A bitrate, or a number of frames per second. -/
  | rate (value : UInt32)
  | dropped (drop : Bool)
  deriving DecidableEq, Repr

/-- What the clock shows in a request, in the order in which it is read. -/
def Request.readings : Request → List Millis
  | .reset | .configure _ | .feed _ _ _ | .enableDropping _ => []
  | .frameRate now | .sentBitrate now | .sentFrameRate now => [now]
  | .dropFrame arrived now => [arrived, now]
  | .account now _ _ => [now]

/-- A request that only asks for an estimate or for statistics. -/
def Request.isQuery : Request → Bool
  | .frameRate _ | .sentBitrate _ | .sentFrameRate _ => true
  | _ => false

def perform (r : Regulator) : Request → Regulator × Answer
  | .reset => (r.reset, .done)
  | .configure limits => (r.configure limits, .done)
  | .feed bitrate lossRate roundTrip =>
      let (r, target) := r.feed bitrate lossRate roundTrip
      (r, .rate target)
  | .frameRate now =>
      let (r, rate) := r.frameRate now
      (r, .rate rate)
  | .dropFrame arrived now =>
      let (r, drop) := r.dropFrame arrived now
      (r, .dropped drop)
  | .enableDropping on => (r.enableDropping on, .done)
  | .account now size timestamp => (r.account now size timestamp, .done)
  | .sentBitrate now =>
      let (r, rate) := r.sentBitrate now
      (r, .rate rate)
  | .sentFrameRate now =>
      let (r, rate) := r.sentFrameRate now
      (r, .rate rate)

/-- What can be read off a regulator at any time. Reading it is no request, as it
takes no look at the clock and leaves the regulator as it is. -/
structure Settings where
  targetBitrate : UInt32
  lossRate : UInt8
  roundTrip : Millis
  dropping : Bool
  deriving DecidableEq, Repr

def settings (r : Regulator) : Settings where
  targetBitrate := r.targetBitrate
  lossRate := r.lossRate
  roundTrip := r.roundTrip
  dropping := r.bucket.enabled

def run (r : Regulator) (requests : List Request) : Regulator :=
  requests.foldl (fun r request => (r.perform request).1) r

end Regulator

end Simulcast
