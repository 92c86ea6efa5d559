import Simulcast.Codec.Basic

/-!
Tightly packed planar pictures: a luma plane, then two chroma planes that
cover two by two pixels each. Sizes are computed in 64-bit words; `frameBytes`
is the size without any bound, and the two agree as long as it fits. Memory for
a picture is taken to be available whatever its size, so a buffer of 2^63 bytes
or more, which no allocator grants, exists here like any other.
-/

namespace Simulcast

abbrev Bytes := Array UInt8

/-- Whether a size can be held in a 64-bit word. -/
def FitsWord (n : Nat) : Prop := n < UInt64.size

instance (n : Nat) : Decidable (FitsWord n) := inferInstanceAs (Decidable (n < UInt64.size))

/-- Chroma samples per line or column of `n` luma samples; odd sizes round up. -/
def chromaCount (n : Nat) : Nat := (n + 1) / 2

def frameBytes (width height : Nat) : Nat :=
  width * height + 2 * chromaCount width * chromaCount height

/-- Bytes of a packed picture in word arithmetic, which wraps around. -/
def frameSize (width height : UInt64) : UInt64 :=
  let chromaWidth := (width + 1) / 2
  let chromaHeight := (height + 1) / 2
  width * height + 2 * chromaWidth * chromaHeight

/-- Whether no step of the size computation leaves the 64-bit range. -/
def FrameFits (width height : Nat) : Prop :=
  FitsWord (width + 1) ∧ FitsWord (height + 1) ∧ FitsWord (frameBytes width height)

instance (width height : Nat) : Decidable (FrameFits width height) :=
  inferInstanceAs (Decidable (_ ∧ _ ∧ _))

namespace Resolution

def packedSize (r : Resolution) : Nat :=
  (frameSize r.width.toUInt64 r.height.toUInt64).toNat

end Resolution

/-- A packed planar picture. The data may be longer than the picture needs. -/
structure PlanarImage where
  resolution : Resolution
  data : Bytes
  deriving DecidableEq, Repr

namespace PlanarImage

/-- Takes `data` for a picture, unless it is too short for one. -/
def ofBytes? (resolution : Resolution) (data : Bytes) : Option PlanarImage :=
  if data.size < resolution.packedSize then none else some ⟨resolution, data⟩

/-- A gray picture. There is always memory for it. -/
def gray (resolution : Resolution) : PlanarImage :=
  ⟨resolution, Array.replicate resolution.packedSize 0x80⟩

end PlanarImage

end Simulcast
