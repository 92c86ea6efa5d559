import Mathlib.Algebra.GroupWithZero.Nat
import Simulcast.Proofs.Picture.Deinterleaving

/-!
The size of a packed picture in word arithmetic against the size without any
bound. No single product leaves the 64-bit range, whatever the resolution, but
the sum of the planes does for the largest pictures. Up to there the size is
exact and data is taken for a picture only if all three planes are in it. Beyond,
the size is cut down to a word, and data as short as that is taken for the whole
picture.
-/

namespace Simulcast

variable {data : Bytes} {width height : Nat}

/-- Every byte of the three planes of a packed picture is in `data`. -/
structure HoldsFrame (data : Bytes) (width height : Nat) : Prop where
  luma : ∀ x < width, ∀ y < height, y * width + x < data.size
  first : ∀ x < chromaCount width, ∀ y < chromaCount height,
    width * height + y * chromaCount width + x < data.size
  second : ∀ x < chromaCount width, ∀ y < chromaCount height,
    width * height + chromaCount width * chromaCount height + y * chromaCount width + x < data.size

theorem chromaCount_eq_zero_iff {n : Nat} : chromaCount n = 0 ↔ n = 0 := by
  unfold chromaCount
  omega

theorem holdsFrame_iff : HoldsFrame data width height ↔ frameBytes width height ≤ data.size := by
  have hframe := frameBytes_eq width height
  constructor
  · rintro ⟨_, _, hsecond⟩
    by_cases hempty : width = 0 ∨ height = 0
    · have hnone : width * height = 0 ∧ chromaCount width * chromaCount height = 0 := by
        rcases hempty with rfl | rfl <;> simp [chromaCount]
      omega
    · have hcolumns : chromaCount width ≠ 0 := by
        rw [ne_eq, chromaCount_eq_zero_iff]
        omega
      have hrows : chromaCount height ≠ 0 := by
        rw [ne_eq, chromaCount_eq_zero_iff]
        omega
      -- The last byte of the picture ends the last line of the second chroma plane.
      have hlast := hsecond (chromaCount width - 1) (by omega) (chromaCount height - 1) (by omega)
      have hplane : (chromaCount height - 1) * chromaCount width + chromaCount width =
          chromaCount width * chromaCount height := by
        rw [← Nat.succ_mul, Nat.succ_eq_add_one, Nat.sub_add_cancel (by omega), Nat.mul_comm]
      omega
  · intro hsize
    refine ⟨?_, ?_, ?_⟩
    · intro x hx y hy
      have hindex := index_lt hx hy
      omega
    · intro x hx y hy
      have hindex := index_lt hx hy
      omega
    · intro x hx y hy
      have hindex := index_lt hx hy
      omega

theorem chromaCount_toNat (n : UInt32) :
    ((n.toUInt64 + 1) / 2).toNat = chromaCount n.toNat := by
  have hword : n.toNat < 2 ^ 32 := n.toNat_lt
  have hone : (1 : UInt64).toNat = 1 := rfl
  have htwo : (2 : UInt64).toNat = 2 := rfl
  rw [UInt64.toNat_div, UInt64.toNat_add, UInt32.toNat_toUInt64, hone, htwo, chromaCount,
    Nat.mod_eq_of_lt (by omega)]

/-- In word arithmetic the size wraps around as a whole. -/
theorem Resolution.packedSize_eq (r : Resolution) :
    r.packedSize = frameBytes r.width.toNat r.height.toNat % UInt64.size := by
  rw [packedSize, frameSize, frameBytes]
  simp only [UInt64.toNat_add, UInt64.toNat_mul, chromaCount_toNat, UInt32.toNat_toUInt64]
  simp [UInt64.size, Nat.add_mod, Nat.mul_mod]

/-- The size is exact, and data is taken for a picture only if it holds the
whole of it, exactly as long as the size of the picture fits in a word. What is
asked of data in any case is the size cut down to a word. -/
theorem packedSize_exact_iff (r : Resolution) :
    r.packedSize = frameBytes r.width.toNat r.height.toNat % UInt64.size ∧
      (r.packedSize = frameBytes r.width.toNat r.height.toNat ↔
        FitsWord (frameBytes r.width.toNat r.height.toNat)) ∧
      (∀ data, PlanarImage.ofBytes? r data = some ⟨r, data⟩ ↔
        frameBytes r.width.toNat r.height.toNat % UInt64.size ≤ data.size) ∧
      ((∀ data image, PlanarImage.ofBytes? r data = some image →
          image.data = data ∧ HoldsFrame data r.width.toNat r.height.toNat) ↔
        FitsWord (frameBytes r.width.toNat r.height.toNat)) := by
  have hwraps := r.packedSize_eq
  have hexact : r.packedSize = frameBytes r.width.toNat r.height.toNat ↔
      FitsWord (frameBytes r.width.toNat r.height.toNat) := by
    rw [hwraps, FitsWord]
    exact ⟨fun h => h ▸ Nat.mod_lt _ (by decide), Nat.mod_eq_of_lt⟩
  have htaken : ∀ data, PlanarImage.ofBytes? r data = some ⟨r, data⟩ ↔
      r.packedSize ≤ data.size := by
    intro data
    unfold PlanarImage.ofBytes?
    split <;> simp <;> omega
  refine ⟨hwraps, hexact, fun data => hwraps ▸ htaken data, ?_, ?_⟩
  · intro hholds
    -- Data of the size that is asked for is taken, so it has to hold the picture.
    have htook := (htaken (Array.replicate r.packedSize 0)).mpr (by simp)
    have hsize := holdsFrame_iff.mp (hholds _ _ htook).2
    rw [Array.size_replicate, hwraps] at hsize
    exact Nat.lt_of_le_of_lt hsize (Nat.mod_lt _ (by decide))
  · intro hfits data image himage
    unfold PlanarImage.ofBytes? at himage
    split at himage
    · simp at himage
    · obtain rfl := Option.some.inj himage
      rw [holdsFrame_iff, ← hexact.mpr hfits]
      exact ⟨rfl, by omega⟩

/-- Four bytes are taken for a picture of four bytes more than a word counts. -/
theorem frame_taken_from_four_bytes :
    frameBytes 4294836226 2863398913 = 2 ^ 64 + 4 ∧
      frameSize 4294836226 2863398913 = 4 ∧
      PlanarImage.ofBytes? ⟨4294836226, 2863398913⟩ #[0, 0, 0, 0] =
        some ⟨⟨4294836226, 2863398913⟩, #[0, 0, 0, 0]⟩ := by
  decide +kernel

end Simulcast
