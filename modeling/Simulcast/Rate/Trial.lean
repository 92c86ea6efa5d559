import Simulcast.Rate.Regulator

/-!
Rate control without a sender: frames come in at regular times, and whichever
is not dropped is encoded to images of one size.
-/

namespace Simulcast

/-- A series of frames for a regulator. -/
structure FrameTrain where
  frames : Nat
  size : Nat
  streams : Nat := 1
  timestamp : UInt32 := 0
  step : UInt32 := 3000
  interval : Millis := 33
  deriving DecidableEq, Repr

structure TrainEntry where
  dropped : Bool
  /-- The estimate of the frame rate after it. -/
  frameRate : UInt32
  deriving DecidableEq, Repr

namespace Regulator

def accountFrame (r : Regulator) (now : Millis) (t : FrameTrain) (timestamp : UInt32) : Regulator :=
  (List.range t.streams).foldl (fun r _ => r.account now t.size timestamp) r

def trainStep (r : Regulator) (now : Millis) (t : FrameTrain) (k : Nat) :
    Regulator × TrainEntry :=
  let (r, dropped) := r.dropFrame now now
  let r :=
    if dropped then r else r.accountFrame now t (t.timestamp + UInt32.ofNat k * t.step)
  let (r, frameRate) := r.frameRate now
  (r, ⟨dropped, frameRate⟩)

/-- The frames of a train in order, and the time afterwards. -/
def train (r : Regulator) (now : Millis) (t : FrameTrain) :
    Regulator × Millis × List TrainEntry :=
  let (r, now, entries) := (List.range t.frames).foldl (fun (r, now, entries) k =>
    let (r, entry) := r.trainStep now t k
    (r, Millis.after now t.interval, entry :: entries)) (r, now, [])
  (r, now, entries.reverse)

end Regulator

end Simulcast
