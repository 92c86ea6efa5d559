import Simulcast.Picture.Planar

/-!
Conversion of a picture whose two chroma planes are interleaved, with padded
lines at arbitrary offsets, to a tightly packed planar picture. The checks
come first and in a fixed order. The planes are then cut into lines, which are
copied one by one.

Two things stop the program instead of being reported: a size that leaves the
64-bit range, and a cut or a read that the buffers do not allow. Of the latter
the checks leave one, in a picture of width zero that passes them all: there are
no lines of length zero to cut a plane into.
-/

namespace Simulcast

/-- Line lengths and starting points of the two planes in a source buffer. -/
structure InterleavedLayout where
  lumaStride : Nat
  chromaStride : Nat
  lumaOffset : Nat
  chromaOffset : Nat
  deriving DecidableEq, Repr

inductive ConversionError where
  | invalidStride (stride width : Nat)
  | sourceTooSmall (needed available : Nat)
  | destinationTooSmall (needed available : Nat)
  deriving DecidableEq, Repr

def ConversionError.message : ConversionError → String
  | .invalidStride stride width =>
      s!"stride {stride} is smaller than the line width {width}"
  | .sourceTooSmall needed available =>
      s!"source buffer too small: need {needed} bytes, have {available}"
  | .destinationTooSmall needed available =>
      s!"destination buffer too small: need {needed} bytes, have {available}"

/-- What a conversion came to, with the destination as it is then. -/
inductive Conversion where
  | written (destination : Bytes)
  | refused (error : ConversionError) (destination : Bytes)
  | aborted
  deriving DecidableEq, Repr

/-- The end of the last needed byte of a plane: the offset alone if the plane
has no lines. -/
def planeEnd (offset stride line lines : Nat) : Nat :=
  if lines = 0 then offset else offset + stride * (lines - 1) + line

/-- Where the last byte read from the source lies. -/
def sourceEnd (width height : Nat) (layout : InterleavedLayout) : Nat :=
  max (planeEnd layout.lumaOffset layout.lumaStride width height)
    (planeEnd layout.chromaOffset layout.chromaStride
      (2 * chromaCount width) (chromaCount height))

/-- The bytes of a buffer from `start` up to `stop`, if it has them. -/
def slice? (bytes : Bytes) (start stop : Nat) : Option Bytes :=
  if start ≤ stop ∧ stop ≤ bytes.size then some (bytes.extract start stop) else none

/-- A buffer in pieces of `size` bytes, the last one perhaps shorter. Nothing can
be cut into pieces of no bytes. -/
def pieces? (bytes : Bytes) (size : Nat) : Option (List Bytes) :=
  if size = 0 then none
  else some ((List.range ((bytes.size + size - 1) / size)).map fun k =>
    bytes.extract (k * size) ((k + 1) * size))

/-- The first `lines` lines of a plane that starts at `offset`, without their padding. -/
def planeLines? (source : Bytes) (offset stride line lines : Nat) : Option (List Bytes) := do
  let plane ← slice? source offset source.size
  let padded ← pieces? plane stride
  (padded.take lines).mapM fun piece => slice? piece 0 line

/-- Writes lines over old ones in order, as far as there are both. A line can be
copied only over one of its own length. -/
def replaceLines? : List Bytes → List Bytes → Option (List Bytes)
  | new :: news, old :: olds =>
      if new.size = old.size then (replaceLines? news olds).map (new :: ·) else none
  | _, olds => some olds

/-- A plane of lines of `line` bytes with its first lines replaced. -/
def overwrite? (plane : Bytes) (line : Nat) (lines : List Bytes) : Option Bytes := do
  let old ← pieces? plane line
  let new ← replaceLines? lines old
  return new.toArray.flatten

/-- The even and the odd bytes of a line that consists of pairs. -/
def separate? (line : Bytes) : Option (Bytes × Bytes) := do
  let pairs ← pieces? line 2
  let even ← pairs.mapM fun pair => pair[0]?
  let odd ← pairs.mapM fun pair => pair[1]?
  return (even.toArray, odd.toArray)

/-- The destination with a packed picture over its start: luma lines, then the
even and the odd chroma bytes. -/
def writePlanes? (source destination : Bytes) (width height : Nat)
    (layout : InterleavedLayout) : Option Bytes := do
  let chromaWidth := chromaCount width
  let chromaHeight := chromaCount height
  let lumaPlane ← slice? destination 0 (width * height)
  let chromaPlanes ← slice? destination (width * height) destination.size
  let evenPlane ← slice? chromaPlanes 0 (chromaWidth * chromaHeight)
  let oddPlane ← slice? chromaPlanes (chromaWidth * chromaHeight) chromaPlanes.size
  let lumaLines ← planeLines? source layout.lumaOffset layout.lumaStride width height
  let luma ← overwrite? lumaPlane width lumaLines
  let chromaLines ← planeLines? source layout.chromaOffset layout.chromaStride
    (2 * chromaWidth) chromaHeight
  let halves ← chromaLines.mapM separate?
  let even ← overwrite? evenPlane chromaWidth (halves.map (·.1))
  let odd ← overwrite? oddPlane chromaWidth (halves.map (·.2))
  return luma ++ even ++ odd

/-- Converts the picture in `source` and writes it over the start of
`destination`. Bytes of the destination past the picture stay. -/
def deinterleave (source destination : Bytes) (width height : Nat)
    (layout : InterleavedLayout) : Conversion :=
  let chromaLine := 2 * chromaCount width
  let needed := sourceEnd width height layout
  let size := frameBytes width height
  if ¬ (FitsWord (width + 1) ∧ FitsWord (height + 1)) then .aborted
  else if layout.lumaStride < width then
    .refused (.invalidStride layout.lumaStride width) destination
  else if layout.chromaStride < chromaLine then
    .refused (.invalidStride layout.chromaStride chromaLine) destination
  else if ¬ FitsWord needed then .aborted
  else if source.size < needed then
    .refused (.sourceTooSmall needed source.size) destination
  else if ¬ FitsWord size then .aborted
  else if destination.size < size then
    .refused (.destinationTooSmall size destination.size) destination
  else
    match writePlanes? source destination width height layout with
    | some written => .written written
    | none => .aborted

end Simulcast
