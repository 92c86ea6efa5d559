/-!
A leaky bucket that says which incoming frames to drop. Encoded frames fill it
with their bits; each incoming frame drains what one frame interval of the
target bitrate carries. While the bucket holds more than half a second of the
target, frames are dropped.
-/

namespace Simulcast

structure LeakyBucket where
  enabled : Bool := true
  /-- Bits in the bucket. -/
  level : Float := 0
  /-- Bits the bucket may hold. -/
  limit : Float := 0
  /-- Bits per second. -/
  target : Float := 0
  deriving Repr

namespace LeakyBucket

/-- Seconds of the target bitrate the bucket may hold. -/
def window : Float := 0.5

/-- Empties the bucket and forgets the target; whether it is enabled stays. -/
def reset (b : LeakyBucket) : LeakyBucket where
  enabled := b.enabled

def enable (b : LeakyBucket) (on : Bool) : LeakyBucket :=
  { b with enabled := on }

def setTarget (b : LeakyBucket) (bitrate : UInt32) : LeakyBucket :=
  { b with target := bitrate.toFloat, limit := bitrate.toFloat * window }

/-- Adds the bits of an encoded frame of `size` bytes. -/
def fill (b : LeakyBucket) (size : Nat) : LeakyBucket :=
  if b.enabled then { b with level := b.level + (UInt64.ofNat (size * 8)).toFloat } else b

/-- Drains one frame interval at `frameRate`, down to empty. -/
def leak (b : LeakyBucket) (frameRate : UInt32) : LeakyBucket :=
  if b.enabled ∧ frameRate ≠ 0 then
    let rest := b.level - b.target / frameRate.toFloat
    { b with level := if rest > 0 then rest else 0 }
  else b

theorem fill_enabled (b : LeakyBucket) (size : Nat) : (b.fill size).enabled = b.enabled := by
  unfold fill
  split <;> rfl

theorem leak_enabled (b : LeakyBucket) (frameRate : UInt32) :
    (b.leak frameRate).enabled = b.enabled := by
  unfold leak
  split <;> rfl

/-- Whether the next frame is to be dropped. Without a target none is. -/
def overfull (b : LeakyBucket) : Bool :=
  b.enabled && b.target > 0 && b.level > b.limit

end LeakyBucket

end Simulcast
