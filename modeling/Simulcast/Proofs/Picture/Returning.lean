import Simulcast.Picture.Frame
import Simulcast.Proofs.Picture.Deinterleaving

/-!
Which conversions come to an end. A picture that has a width is converted or
refused, whatever its height, its lines and the buffers, as long as its sizes fit
in words. A picture without columns passes both checks of its lines and the check
of the destination, so only a source that ends too early refuses it. In any other
case a plane without columns is cut into lines of no bytes, and nothing comes back.
-/

namespace Simulcast

variable {source destination : Bytes} {width height : Nat} {layout : InterleavedLayout}

/-- The conversion came back, with the picture written or with an error. -/
inductive Conversion.Returned : Conversion → Prop where
  | written (destination : Bytes) : Returned (.written destination)
  | refused (error : ConversionError) (destination : Bytes) : Returned (.refused error destination)

/-- The copy of a mapped picture came back, or the message of a conversion error
as the only reason why there is none. -/
inductive PlanarImage.Returned : Except CopyFault PlanarImage → Prop where
  | copied (image : PlanarImage) : Returned (.ok image)
  | refused (error : ConversionError) : Returned (.error (.failed [error.message]))

theorem pieces?_zero (bytes : Bytes) : pieces? bytes 0 = none :=
  if_pos rfl

theorem overwrite?_zero (plane : Bytes) (lines : List Bytes) : overwrite? plane 0 lines = none := by
  simp only [overwrite?, pieces?_zero, Option.bind_eq_bind, Option.bind_none]

/-- Whatever there is to read, no line can be written into a picture of width zero. -/
theorem writePlanes?_zero (source destination : Bytes) (height : Nat)
    (layout : InterleavedLayout) : writePlanes? source destination 0 height layout = none := by
  simp only [writePlanes?, overwrite?_zero, Option.bind_eq_bind, Option.bind_none,
    Option.bind_fun_none]

theorem frameBytes_zero (height : Nat) : frameBytes 0 height = 0 := by
  simp [frameBytes, chromaCount]

/-- Of the checks only the one of the source can fail if there are no columns. -/
theorem deinterleave_zero (source destination : Bytes) (hfits : SizesFit 0 height layout) :
    deinterleave source destination 0 height layout =
      if source.size < sourceEnd 0 height layout then
        .refused (.sourceTooSmall (sourceEnd 0 height layout) source.size) destination
      else .aborted := by
  obtain ⟨⟨hcolumns, hrows, hframe⟩, hend⟩ := hfits
  have hluma : ¬ layout.lumaStride < 0 := Nat.not_lt_zero _
  have hchroma : ¬ layout.chromaStride < 2 * chromaCount 0 := Nat.not_lt_zero _
  have hroom : ¬ destination.size < frameBytes 0 height := by
    rw [frameBytes_zero]
    exact Nat.not_lt_zero _
  simp only [deinterleave, hcolumns, hrows, hframe, hend, and_self, not_true_eq_false, if_false,
    hluma, hchroma, hroom, writePlanes?_zero]

theorem Converts.returned {outcome : Conversion}
    (h : Converts source destination width height layout outcome) : outcome.Returned := by
  cases h with
  | shortLuma _ => exact .refused _ _
  | shortChroma _ _ => exact .refused _ _
  | shortSource _ _ => exact .refused _ _
  | shortDestination _ _ _ => exact .refused _ _
  | written _ _ _ => exact .written _

theorem deinterleave_returned_iff (source destination : Bytes)
    (hfits : SizesFit width height layout) :
    (deinterleave source destination width height layout).Returned ↔
      ¬ (width = 0 ∧ sourceEnd width height layout ≤ source.size) := by
  rcases Nat.eq_zero_or_pos width with rfl | hwidth
  · rw [deinterleave_zero source destination hfits]
    split
    next hshort => exact iff_of_true (.refused _ _) (by omega)
    next henough => exact iff_of_false (by rintro ⟨⟩) fun h => h ⟨rfl, by omega⟩
  · have hconverts := deinterleave_converts source destination hwidth hfits
    exact iff_of_true hconverts.returned (by omega)

/-- The copy of a mapped picture comes back exactly if the conversion does. -/
theorem toPlanar_mapped_returned_iff {resolution : Resolution} (data : Bytes)
    (hfits : FrameFits resolution.width.toNat resolution.height.toNat) :
    PlanarImage.Returned (Picture.mapped resolution data layout).toPlanar ↔
      (deinterleave data (Array.replicate resolution.packedSize 0) resolution.width.toNat
        resolution.height.toNat layout).Returned := by
  simp only [Picture.toPlanar, hfits, not_true_eq_false, if_false]
  cases deinterleave data (Array.replicate resolution.packedSize 0) resolution.width.toNat
      resolution.height.toNat layout with
  | written destination => exact iff_of_true (.copied _) (.written _)
  | refused error left => exact iff_of_true (.refused error) (.refused error left)
  | aborted => exact iff_of_false (by rintro ⟨⟩) (by rintro ⟨⟩)

/-- Every conversion whose sizes fit comes back, called directly or for the copy
of a mapped picture, except for a picture without columns that passes all checks. -/
theorem conversion_returned_iff (source : Bytes) (layout : InterleavedLayout) :
    (∀ destination width height, SizesFit width height layout →
      ((deinterleave source destination width height layout).Returned ↔
        ¬ (width = 0 ∧ sourceEnd width height layout ≤ source.size))) ∧
      ∀ resolution : Resolution,
        SizesFit resolution.width.toNat resolution.height.toNat layout →
        (PlanarImage.Returned (Picture.mapped resolution source layout).toPlanar ↔
          ¬ (resolution.width = 0 ∧
            sourceEnd resolution.width.toNat resolution.height.toNat layout ≤ source.size)) := by
  constructor
  · intro destination width height hfits
    exact deinterleave_returned_iff source destination hfits
  · intro resolution hfits
    have hzero : resolution.width = 0 ↔ resolution.width.toNat = 0 := UInt32.toNat_inj.symm
    rw [toPlanar_mapped_returned_iff source hfits.frame, deinterleave_returned_iff _ _ hfits, hzero]

/-- A mapped picture without lines comes back as a copy. Without columns a copy is
refused, and so is a direct call, if a plane begins past the end of the source. -/
theorem conversion_returned_empty :
    SizesFit 3 0 ⟨4, 4, 0, 5⟩ ∧ SizesFit 0 2 ⟨4, 4, 0, 8⟩ ∧ SizesFit 0 0 ⟨0, 0, 6, 0⟩ ∧
      PlanarImage.Returned (Picture.mapped ⟨3, 0⟩ #[1, 2, 3, 4, 5] ⟨4, 4, 0, 5⟩).toPlanar ∧
      PlanarImage.Returned (Picture.mapped ⟨0, 2⟩ #[1, 2, 3, 4, 5] ⟨4, 4, 0, 8⟩).toPlanar ∧
      (deinterleave #[1, 2, 3, 4, 5] #[7] 0 0 ⟨0, 0, 6, 0⟩).Returned := by
  have hlineless : SizesFit 3 0 ⟨4, 4, 0, 5⟩ := by decide
  have hcolumnless : SizesFit 0 2 ⟨4, 4, 0, 8⟩ := by decide
  have hempty : SizesFit 0 0 ⟨0, 0, 6, 0⟩ := by decide
  refine ⟨hlineless, hcolumnless, hempty, ?_, ?_, ?_⟩
  · exact ((conversion_returned_iff _ _).2 ⟨3, 0⟩ hlineless).mpr (by decide)
  · exact ((conversion_returned_iff _ _).2 ⟨0, 2⟩ hcolumnless).mpr (by decide)
  · exact ((conversion_returned_iff _ _).1 #[7] 0 0 hempty).mpr (by decide)

/-- A picture of no columns and two lines passes every check and does not come
back, neither from a direct call nor as a copy. -/
theorem columnless_conversion_aborts :
    SizesFit 0 2 ⟨4, 4, 0, 8⟩ ∧
      deinterleave #[1, 2, 3, 4, 5, 6, 7, 8, 9, 10, 11, 12] #[7, 7, 7] 0 2 ⟨4, 4, 0, 8⟩ =
        .aborted ∧
      (Picture.mapped ⟨0, 2⟩ #[1, 2, 3, 4, 5, 6, 7, 8, 9, 10, 11, 12] ⟨4, 4, 0, 8⟩).toPlanar =
        .error .aborted := by
  decide +kernel

end Simulcast
