import Simulcast.Picture.Interleaved
import Simulcast.Time

/-!
Raw frames as they are submitted: a picture, its timestamp, the time it is to
be shown and how it is turned. The picture is either packed and readable, or
lies in memory that software encoders cannot read and has to be copied first.

Of such memory there are two kinds here: mapped memory, and memory that cannot
be copied at all. Kinds that an application brings along, with copies of its
own making, are left out. Memory for a copy is taken to be available whenever
the size of the picture fits into 64 bits.
-/

namespace Simulcast

inductive Rotation where
  | none
  | quarter
  | half
  | threeQuarters
  deriving DecidableEq, Repr

def Rotation.degrees : Rotation → Nat
  | .none => 0
  | .quarter => 90
  | .half => 180
  | .threeQuarters => 270

/-- Rotations come in quarters of a turn; any other angle counts as none. -/
def Rotation.ofDegrees : Int → Rotation
  | 90 => .quarter
  | 180 => .half
  | 270 => .threeQuarters
  | _ => .none

/-- Where the pixels of a frame are. -/
inductive Picture where
  /-- Readable as it is. -/
  | planar (image : PlanarImage)
  /-- Mapped native memory with interleaved chroma. -/
  | mapped (resolution : Resolution) (data : Bytes) (layout : InterleavedLayout)
  /-- Native memory that cannot be read, and why: outermost reason first. -/
  | unreadable (resolution : Resolution) (reasons : List String)
  deriving DecidableEq, Repr

/-- Why no readable copy of a frame could be made. -/
inductive CopyFault where
  /-- The reasons, outermost first. -/
  | failed (reasons : List String)
  /-- The conversion stopped the program. -/
  | aborted
  deriving DecidableEq, Repr

def CopyFault.reasons : CopyFault → List String
  | .failed reasons => reasons
  | .aborted => []

namespace Picture

def resolution : Picture → Resolution
  | .planar image => image.resolution
  | .mapped resolution _ _ => resolution
  | .unreadable resolution _ => resolution

def isNative : Picture → Bool
  | .planar _ => false
  | .mapped _ _ _ => true
  | .unreadable _ _ => true

/-- A readable copy of a picture, of the same resolution. -/
def toPlanar : Picture → Except CopyFault PlanarImage
  | .planar image => .ok image
  | .mapped resolution data layout =>
      let width := resolution.width.toNat
      let height := resolution.height.toNat
      if ¬ FrameFits width height then .error .aborted
      else
        match deinterleave data (Array.replicate resolution.packedSize 0) width height layout with
        | .written destination => .ok ⟨resolution, destination⟩
        | .refused error _ => .error (.failed [error.message])
        | .aborted => .error .aborted
  | .unreadable _ reasons => .error (.failed reasons)

end Picture

/-- A raw frame. The timestamp counts at 90 kHz. -/
structure Frame where
  picture : Picture
  timestamp : UInt32 := 0
  renderTime : Millis := 0
  rotation : Rotation := .none
  deriving DecidableEq, Repr

namespace Frame

def resolution (f : Frame) : Resolution := f.picture.resolution

/-- A readable copy of the frame, with the same timing and rotation. -/
def toPlanar (f : Frame) : Except CopyFault Frame :=
  match f.picture.toPlanar with
  | .ok image => .ok { f with picture := .planar image }
  | .error fault => .error fault

end Frame

end Simulcast
