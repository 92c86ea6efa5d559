import Simulcast.Proofs.Picture.Lines

/-!
The conversion of an interleaved picture that has a width. Of the four ways in
which it can be refused the first that applies is reported, and the destination
stays as it is. Otherwise every byte of the packed picture is the byte of the
source it stands for, the bytes past the picture stay, and every line and byte
asked for on the way is there.
-/

namespace Simulcast

variable {source destination : Bytes} {width height : Nat} {layout : InterleavedLayout}

/-- No step of the size arithmetic of a conversion leaves the 64-bit range. -/
structure SizesFit (width height : Nat) (layout : InterleavedLayout) : Prop where
  frame : FrameFits width height
  source : FitsWord (sourceEnd width height layout)

instance (width height : Nat) (layout : InterleavedLayout) :
    Decidable (SizesFit width height layout) :=
  decidable_of_iff (FrameFits width height ∧ FitsWord (sourceEnd width height layout))
    ⟨fun h => ⟨h.1, h.2⟩, fun h => ⟨h.1, h.2⟩⟩

/-- Lines are at least as long as the picture needs them. -/
structure StridesSuffice (width : Nat) (layout : InterleavedLayout) : Prop where
  luma : width ≤ layout.lumaStride
  chroma : 2 * chromaCount width ≤ layout.chromaStride

instance (width : Nat) (layout : InterleavedLayout) : Decidable (StridesSuffice width layout) :=
  decidable_of_iff (width ≤ layout.lumaStride ∧ 2 * chromaCount width ≤ layout.chromaStride)
    ⟨fun h => ⟨h.1, h.2⟩, fun h => ⟨h.1, h.2⟩⟩

theorem stridesSuffice_iff : StridesSuffice width layout ↔
    ¬ (layout.lumaStride < width ∨ layout.chromaStride < 2 * chromaCount width) := by
  constructor
  · rintro ⟨hluma, hchroma⟩
    omega
  · intro h
    exact ⟨by omega, by omega⟩

/-- The source has both planes. -/
structure SourceSuffices (source : Bytes) (width height : Nat) (layout : InterleavedLayout) :
    Prop where
  luma : HoldsPlane source layout.lumaOffset layout.lumaStride width height
  chroma : HoldsPlane source layout.chromaOffset layout.chromaStride (2 * chromaCount width)
    (chromaCount height)

instance (source : Bytes) (width height : Nat) (layout : InterleavedLayout) :
    Decidable (SourceSuffices source width height layout) :=
  decidable_of_iff
    (HoldsPlane source layout.lumaOffset layout.lumaStride width height ∧
      HoldsPlane source layout.chromaOffset layout.chromaStride (2 * chromaCount width)
        (chromaCount height))
    ⟨fun h => ⟨h.1, h.2⟩, fun h => ⟨h.1, h.2⟩⟩

theorem chromaCount_pos (h : 0 < width) : 0 < chromaCount width := by
  unfold chromaCount
  omega

theorem sourceSuffices_iff (hwidth : 0 < width) :
    SourceSuffices source width height layout ↔ sourceEnd width height layout ≤ source.size := by
  have hluma : HoldsPlane source layout.lumaOffset layout.lumaStride width height ↔ _ :=
    holdsPlane_iff hwidth
  have hchroma : HoldsPlane source layout.chromaOffset layout.chromaStride
      (2 * chromaCount width) (chromaCount height) ↔ _ :=
    holdsPlane_iff (Nat.mul_pos (by decide) (chromaCount_pos hwidth))
  rw [sourceEnd, Nat.max_le, ← hluma, ← hchroma]
  exact ⟨fun h => ⟨h.luma, h.chroma⟩, fun h => ⟨h.1, h.2⟩⟩

def lumaLines (source : Bytes) (width height : Nat) (layout : InterleavedLayout) : List Bytes :=
  (List.range height).map (sourceLine source layout.lumaOffset layout.lumaStride width)

def chromaLines (source : Bytes) (width height : Nat) (layout : InterleavedLayout) : List Bytes :=
  (List.range (chromaCount height)).map
    (sourceLine source layout.chromaOffset layout.chromaStride (2 * chromaCount width))

/-- One chroma plane: the even bytes of the interleaved lines, or the odd ones. -/
def chromaHalf (first : Nat) (source : Bytes) (width height : Nat) (layout : InterleavedLayout) :
    List Bytes :=
  (chromaLines source width height layout).map (everyOther first)

/-- The packed picture that a source holds. -/
def packedPicture (source : Bytes) (width height : Nat) (layout : InterleavedLayout) : Bytes :=
  (lumaLines source width height layout).toArray.flatten ++
    (chromaHalf 0 source width height layout).toArray.flatten ++
    (chromaHalf 1 source width height layout).toArray.flatten

theorem lumaEnd_le (h : sourceEnd width height layout ≤ source.size) :
    planeEnd layout.lumaOffset layout.lumaStride width height ≤ source.size :=
  Nat.le_trans (Nat.le_max_left ..) h

theorem chromaEnd_le (h : sourceEnd width height layout ≤ source.size) :
    planeEnd layout.chromaOffset layout.chromaStride (2 * chromaCount width)
      (chromaCount height) ≤ source.size :=
  Nat.le_trans (Nat.le_max_right ..) h

theorem lumaLines_size (h : sourceEnd width height layout ≤ source.size) :
    ∀ l ∈ lumaLines source width height layout, l.size = width := by
  intro l hl
  obtain ⟨y, hy, rfl⟩ := List.mem_map.mp hl
  exact sourceLine_size (List.mem_range.mp hy) (lumaEnd_le h)

theorem chromaLines_size (h : sourceEnd width height layout ≤ source.size) :
    ∀ l ∈ chromaLines source width height layout, l.size = 2 * chromaCount width := by
  intro l hl
  obtain ⟨y, hy, rfl⟩ := List.mem_map.mp hl
  exact sourceLine_size (List.mem_range.mp hy) (chromaEnd_le h)

theorem chromaHalf_size (first : Nat) (h : sourceEnd width height layout ≤ source.size) :
    ∀ l ∈ chromaHalf first source width height layout, l.size = chromaCount width := by
  intro l hl
  obtain ⟨line, hline, rfl⟩ := List.mem_map.mp hl
  rw [everyOther_size, chromaLines_size h line hline]
  omega

theorem lumaLines_getElem? {x y : Nat} (h : sourceEnd width height layout ≤ source.size)
    (hx : x < width) (hy : y < height) :
    (lumaLines source width height layout).toArray.flatten[y * width + x]? =
      source[layout.lumaOffset + y * layout.lumaStride + x]? := by
  rw [flatten_getElem? (lumaLines_size h) hx]
  simp only [lumaLines, List.getElem?_map, List.getElem?_range hy, Option.map_some,
    Option.bind_some]
  exact sourceLine_getElem? hy (lumaEnd_le h) hx

theorem chromaHalf_getElem? {first x y : Nat} (hfirst : first < 2)
    (h : sourceEnd width height layout ≤ source.size)
    (hx : x < chromaCount width) (hy : y < chromaCount height) :
    (chromaHalf first source width height layout).toArray.flatten[y * chromaCount width + x]? =
      source[layout.chromaOffset + y * layout.chromaStride + 2 * x + first]? := by
  have hline : (sourceLine source layout.chromaOffset layout.chromaStride
      (2 * chromaCount width) y).size = 2 * chromaCount width :=
    sourceLine_size hy (chromaEnd_le h)
  rw [flatten_getElem? (chromaHalf_size first h) hx]
  simp only [chromaHalf, chromaLines, List.getElem?_map, List.getElem?_range hy, Option.map_some,
    Option.bind_some]
  rw [everyOther_getElem? hfirst (by omega), sourceLine_getElem? hy (chromaEnd_le h) (by omega),
    Nat.add_assoc _ (2 * x) first]

theorem lumaLines_length : (lumaLines source width height layout).length = height := by
  simp [lumaLines]

theorem chromaHalf_length (first : Nat) :
    (chromaHalf first source width height layout).length = chromaCount height := by
  simp [chromaHalf, chromaLines]

theorem frameBytes_eq (width height : Nat) :
    frameBytes width height =
      width * height + (chromaCount width * chromaCount height +
        chromaCount width * chromaCount height) := by
  rw [frameBytes, Nat.mul_assoc, Nat.two_mul]

/-- The three planes a destination is cut into; the last one has what is left. -/
theorem planes_cut (destination : Bytes) (lumaSize halfSize : Nat)
    (h : lumaSize + halfSize ≤ destination.size) :
    slice? destination 0 lumaSize = some (destination.extract 0 lumaSize) ∧
      slice? destination lumaSize destination.size =
        some (destination.extract lumaSize destination.size) ∧
      slice? (destination.extract lumaSize destination.size) 0 halfSize =
        some (destination.extract lumaSize (lumaSize + halfSize)) ∧
      slice? (destination.extract lumaSize destination.size) halfSize
          (destination.extract lumaSize destination.size).size =
        some (destination.extract (lumaSize + halfSize) destination.size) := by
  have hrest : (destination.extract lumaSize destination.size).size =
      destination.size - lumaSize := Array.size_extract_of_le (Nat.le_refl _)
  refine ⟨slice?_eq (Nat.zero_le _) (by omega), slice?_eq (by omega) (Nat.le_refl _), ?_, ?_⟩
  · rw [slice?_eq (Nat.zero_le _) (by omega), Array.extract_extract, Nat.min_eq_left h,
      Nat.add_zero]
  · rw [slice?_eq (by omega) (Nat.le_refl _), Array.extract_extract, hrest]
    congr 2
    omega

theorem chromaLines_separate (h : sourceEnd width height layout ≤ source.size) :
    (chromaLines source width height layout).mapM separate? =
      some ((chromaLines source width height layout).map fun line =>
        (everyOther 0 line, everyOther 1 line)) := by
  have heach : ∀ line ∈ chromaLines source width height layout,
      separate? line = some (everyOther 0 line, everyOther 1 line) := by
    intro line hline
    refine separate?_eq ?_
    rw [chromaLines_size h line hline]
    omega
  simpa using mapM_map_eq (f := id) heach

theorem lumaLines_read (hwidth : 0 < width) (hstrides : StridesSuffice width layout)
    (h : sourceEnd width height layout ≤ source.size) :
    planeLines? source layout.lumaOffset layout.lumaStride width height =
      some (lumaLines source width height layout) :=
  planeLines?_eq hwidth hstrides.luma (lumaEnd_le h)

theorem chromaLines_read (hwidth : 0 < width) (hstrides : StridesSuffice width layout)
    (h : sourceEnd width height layout ≤ source.size) :
    planeLines? source layout.chromaOffset layout.chromaStride (2 * chromaCount width)
      (chromaCount height) = some (chromaLines source width height layout) :=
  planeLines?_eq (Nat.mul_pos (by decide) (chromaCount_pos hwidth)) hstrides.chroma (chromaEnd_le h)

theorem lumaLines_written {plane : Bytes} (hwidth : 0 < width)
    (h : sourceEnd width height layout ≤ source.size) (hplane : plane.size = width * height) :
    overwrite? plane width (lumaLines source width height layout) =
      some (lumaLines source width height layout).toArray.flatten :=
  overwrite?_all hwidth (lumaLines_size h) (by rw [hplane, lumaLines_length, Nat.mul_comm])

/-- A chroma plane goes over the start of what is there for it. -/
theorem chromaHalf_written {plane : Bytes} (first : Nat) (hwidth : 0 < width)
    (h : sourceEnd width height layout ≤ source.size)
    (hplane : chromaCount width * chromaCount height ≤ plane.size) :
    overwrite? plane (chromaCount width) (chromaHalf first source width height layout) =
      some ((chromaHalf first source width height layout).toArray.flatten ++
        plane.extract (chromaCount width * chromaCount height) plane.size) := by
  have hlength : (chromaHalf first source width height layout).length * chromaCount width =
      chromaCount width * chromaCount height := by
    rw [chromaHalf_length, Nat.mul_comm]
  rw [overwrite?_eq (chromaCount_pos hwidth) (chromaHalf_size first h) (by omega), hlength]

/-- With a width and buffers long enough the planes are cut and copied to the end. -/
theorem writePlanes?_eq (hwidth : 0 < width) (hstrides : StridesSuffice width layout)
    (hsource : sourceEnd width height layout ≤ source.size)
    (hdestination : frameBytes width height ≤ destination.size) :
    writePlanes? source destination width height layout =
      some (packedPicture source width height layout ++
        destination.extract (frameBytes width height) destination.size) := by
  have hframe := frameBytes_eq width height
  obtain ⟨hlumaPlane, hchromaPlanes, hevenPlane, hoddPlane⟩ :=
    planes_cut destination (width * height) (chromaCount width * chromaCount height) (by omega)
  have hlumaSize : (destination.extract 0 (width * height)).size = width * height := by
    rw [Array.size_extract_of_le (by omega), Nat.sub_zero]
  have hevenWritten : overwrite? (destination.extract (width * height)
      (width * height + chromaCount width * chromaCount height)) (chromaCount width)
        (chromaHalf 0 source width height layout) =
          some (chromaHalf 0 source width height layout).toArray.flatten := by
    have hsize : (destination.extract (width * height)
        (width * height + chromaCount width * chromaCount height)).size =
          chromaCount width * chromaCount height := by
      rw [Array.size_extract_of_le (by omega), Nat.add_sub_cancel_left]
    rw [chromaHalf_written 0 hwidth hsource (Nat.le_of_eq hsize.symm), hsize,
      Array.extract_empty_of_stop_le_start (Nat.le_refl _), Array.append_empty]
  -- The last plane goes on to the end of the destination, past the picture.
  have hoddWritten : overwrite? (destination.extract
      (width * height + chromaCount width * chromaCount height) destination.size)
        (chromaCount width) (chromaHalf 1 source width height layout) =
          some ((chromaHalf 1 source width height layout).toArray.flatten ++
            destination.extract (frameBytes width height) destination.size) := by
    have hsize : (destination.extract (width * height + chromaCount width * chromaCount height)
        destination.size).size =
          destination.size - (width * height + chromaCount width * chromaCount height) :=
      Array.size_extract_of_le (Nat.le_refl _)
    rw [chromaHalf_written 1 hwidth hsource (by omega), hsize, Array.extract_extract, hframe,
      Nat.add_assoc, Nat.min_eq_right (by omega)]
  simp only [chromaHalf] at hevenWritten hoddWritten
  simp only [writePlanes?, Option.bind_eq_bind, Option.bind_some, Option.pure_def, hlumaPlane,
    hchromaPlanes, hevenPlane, hoddPlane, lumaLines_read hwidth hstrides hsource,
    chromaLines_read hwidth hstrides hsource, chromaLines_separate hsource,
    lumaLines_written hwidth hsource hlumaSize, List.map_map, Function.comp_def, hevenWritten,
    hoddWritten, packedPicture, chromaHalf, Array.append_assoc]

theorem lumaLines_flatten_size (h : sourceEnd width height layout ≤ source.size) :
    (lumaLines source width height layout).toArray.flatten.size = width * height := by
  rw [flatten_size (lumaLines_size h), lumaLines_length, Nat.mul_comm]

theorem chromaHalf_flatten_size (first : Nat) (h : sourceEnd width height layout ≤ source.size) :
    (chromaHalf first source width height layout).toArray.flatten.size =
      chromaCount width * chromaCount height := by
  rw [flatten_size (chromaHalf_size first h), chromaHalf_length, Nat.mul_comm]

theorem packedPicture_size (h : sourceEnd width height layout ≤ source.size) :
    (packedPicture source width height layout).size = frameBytes width height := by
  rw [packedPicture, Array.size_append, Array.size_append, lumaLines_flatten_size h,
    chromaHalf_flatten_size 0 h, chromaHalf_flatten_size 1 h, frameBytes_eq, Nat.add_assoc]

theorem index_lt {x y columns rows : Nat} (hx : x < columns) (hy : y < rows) :
    y * columns + x < columns * rows := by
  have hnext : (y + 1) * columns ≤ rows * columns := Nat.mul_le_mul_right columns hy
  rw [Nat.succ_mul, Nat.mul_comm rows] at hnext
  omega

theorem packedPicture_luma {x y : Nat} (h : sourceEnd width height layout ≤ source.size)
    (hx : x < width) (hy : y < height) :
    (packedPicture source width height layout)[y * width + x]? =
      source[layout.lumaOffset + y * layout.lumaStride + x]? := by
  have hplane : y * width + x < (lumaLines source width height layout).toArray.flatten.size := by
    rw [lumaLines_flatten_size h]
    exact index_lt hx hy
  rw [packedPicture, Array.append_assoc, Array.getElem?_append_left hplane,
    lumaLines_getElem? h hx hy]

theorem packedPicture_even {x y : Nat} (h : sourceEnd width height layout ≤ source.size)
    (hx : x < chromaCount width) (hy : y < chromaCount height) :
    (packedPicture source width height layout)[width * height + (y * chromaCount width + x)]? =
      source[layout.chromaOffset + y * layout.chromaStride + 2 * x]? := by
  have hluma := lumaLines_flatten_size h
  have hplane : y * chromaCount width + x <
      (chromaHalf 0 source width height layout).toArray.flatten.size := by
    rw [chromaHalf_flatten_size 0 h]
    exact index_lt hx hy
  rw [packedPicture, Array.append_assoc, Array.getElem?_append_right (by omega), hluma,
    Nat.add_sub_cancel_left, Array.getElem?_append_left hplane,
    chromaHalf_getElem? (by omega) h hx hy, Nat.add_zero]

theorem packedPicture_odd {x y : Nat} (h : sourceEnd width height layout ≤ source.size)
    (hx : x < chromaCount width) (hy : y < chromaCount height) :
    (packedPicture source width height layout)[width * height +
        chromaCount width * chromaCount height + (y * chromaCount width + x)]? =
      source[layout.chromaOffset + y * layout.chromaStride + 2 * x + 1]? := by
  have hbefore : ((lumaLines source width height layout).toArray.flatten ++
      (chromaHalf 0 source width height layout).toArray.flatten).size =
        width * height + chromaCount width * chromaCount height := by
    rw [Array.size_append, lumaLines_flatten_size h, chromaHalf_flatten_size 0 h]
  rw [packedPicture, Array.getElem?_append_right (by omega), hbefore, Nat.add_sub_cancel_left,
    chromaHalf_getElem? (by omega) h hx hy]

/-- Everything that can become of a conversion of a picture with a width. -/
inductive Converts (source destination : Bytes) (width height : Nat)
    (layout : InterleavedLayout) : Conversion → Prop where
  | shortLuma (luma : layout.lumaStride < width) :
      Converts source destination width height layout
        (.refused (.invalidStride layout.lumaStride width) destination)
  | shortChroma (luma : width ≤ layout.lumaStride)
      (chroma : layout.chromaStride < 2 * chromaCount width) :
      Converts source destination width height layout
        (.refused (.invalidStride layout.chromaStride (2 * chromaCount width)) destination)
  | shortSource (strides : StridesSuffice width layout)
      (short : source.size < sourceEnd width height layout) :
      Converts source destination width height layout
        (.refused (.sourceTooSmall (sourceEnd width height layout) source.size) destination)
  | shortDestination (strides : StridesSuffice width layout)
      (enough : sourceEnd width height layout ≤ source.size)
      (short : destination.size < frameBytes width height) :
      Converts source destination width height layout
        (.refused (.destinationTooSmall (frameBytes width height) destination.size) destination)
  | written (strides : StridesSuffice width layout)
      (enough : sourceEnd width height layout ≤ source.size)
      (room : frameBytes width height ≤ destination.size) :
      Converts source destination width height layout
        (.written (packedPicture source width height layout ++
          destination.extract (frameBytes width height) destination.size))

theorem deinterleave_converts (source destination : Bytes) (hwidth : 0 < width)
    (hfits : SizesFit width height layout) :
    Converts source destination width height layout
      (deinterleave source destination width height layout) := by
  obtain ⟨⟨hcolumns, hrows, hframe⟩, hend⟩ := hfits
  simp only [deinterleave, hcolumns, hrows, hframe, hend, and_self, not_true_eq_false, if_false]
  split
  next hluma => exact .shortLuma hluma
  next hluma =>
  split
  next hchroma => exact .shortChroma (by omega) hchroma
  next hchroma =>
  have hstrides : StridesSuffice width layout := ⟨by omega, by omega⟩
  split
  next hsource => exact .shortSource hstrides hsource
  next hsource =>
  have henough : sourceEnd width height layout ≤ source.size := by omega
  split
  next hdestination => exact .shortDestination hstrides henough hdestination
  next hdestination =>
  have hroom : frameBytes width height ≤ destination.size := by omega
  rw [writePlanes?_eq hwidth hstrides henough hroom]
  exact .written hstrides henough hroom

/-- A picture with a width is converted or refused, if its sizes fit. -/
theorem deinterleave_ne_aborted (source destination : Bytes) {width height : Nat}
    {layout : InterleavedLayout} (hfits : FrameFits width height)
    (hsource : FitsWord (sourceEnd width height layout)) (hwidth : width ≠ 0) :
    deinterleave source destination width height layout ≠ .aborted := by
  have hconverts := deinterleave_converts source destination (Nat.pos_of_ne_zero hwidth)
    ⟨hfits, hsource⟩
  intro haborted
  rw [haborted] at hconverts
  cases hconverts

/-- One byte is in both buffers, at `i` in the one and at `j` in the other. -/
def SameByte (a : Bytes) (i : Nat) (b : Bytes) (j : Nat) : Prop :=
  ∃ byte, a[i]? = some byte ∧ b[j]? = some byte

/-- `written` has the picture of `source` in it, packed, and is otherwise `destination`. -/
structure Packed (source destination written : Bytes) (width height : Nat)
    (layout : InterleavedLayout) : Prop where
  size : written.size = destination.size
  luma : ∀ x < width, ∀ y < height,
    SameByte written (y * width + x) source (layout.lumaOffset + y * layout.lumaStride + x)
  even : ∀ x < chromaCount width, ∀ y < chromaCount height,
    SameByte written (width * height + y * chromaCount width + x)
      source (layout.chromaOffset + y * layout.chromaStride + 2 * x)
  odd : ∀ x < chromaCount width, ∀ y < chromaCount height,
    SameByte written
      (width * height + chromaCount width * chromaCount height + y * chromaCount width + x)
      source (layout.chromaOffset + y * layout.chromaStride + 2 * x + 1)
  rest : ∀ i, frameBytes width height ≤ i → written[i]? = destination[i]?

theorem sameByte_of_eq {a b : Bytes} {i j : Nat} (hi : i < a.size) (h : a[i]? = b[j]?) :
    SameByte a i b j := by
  have hbyte : a[i]? = some a[i] := Array.getElem?_eq_getElem hi
  exact ⟨a[i], hbyte, h.symm.trans hbyte⟩

theorem packed_picture (hsource : sourceEnd width height layout ≤ source.size)
    (hdestination : frameBytes width height ≤ destination.size) :
    Packed source destination (packedPicture source width height layout ++
      destination.extract (frameBytes width height) destination.size) width height layout := by
  have hpicture := packedPicture_size hsource
  have hframe := frameBytes_eq width height
  have hsize : (packedPicture source width height layout ++
      destination.extract (frameBytes width height) destination.size).size =
        destination.size := by
    rw [Array.size_append, hpicture, Array.size_extract_of_le (Nat.le_refl _)]
    omega
  have hinside : ∀ i < frameBytes width height, (packedPicture source width height layout ++
      destination.extract (frameBytes width height) destination.size)[i]? =
        (packedPicture source width height layout)[i]? :=
    fun i hi => Array.getElem?_append_left (by omega)
  refine ⟨hsize, ?_, ?_, ?_, ?_⟩
  · intro x hx y hy
    have hindex := index_lt hx hy
    exact sameByte_of_eq (by omega)
      ((hinside _ (by omega)).trans (packedPicture_luma hsource hx hy))
  · intro x hx y hy
    have hindex := index_lt hx hy
    rw [Nat.add_assoc (width * height)]
    exact sameByte_of_eq (by omega)
      ((hinside _ (by omega)).trans (packedPicture_even hsource hx hy))
  · intro x hx y hy
    have hindex := index_lt hx hy
    rw [Nat.add_assoc (width * height + chromaCount width * chromaCount height)]
    exact sameByte_of_eq (by omega)
      ((hinside _ (by omega)).trans (packedPicture_odd hsource hx hy))
  · intro i hi
    rw [Array.getElem?_append_right (by omega), hpicture, Array.getElem?_extract]
    split
    next hrest =>
      congr 1
      omega
    next hpast =>
      rw [Array.getElem?_eq_none (by omega)]

/-- A conversion reports the first check that fails and leaves the destination
alone. If none fails it is carried through, and every byte is where it belongs. -/
theorem deinterleave_exact (source destination : Bytes) (width height : Nat)
    (layout : InterleavedLayout) (hwidth : 1 ≤ width) (hfits : SizesFit width height layout) :
    let outcome := deinterleave source destination width height layout
    ((∃ stride line left, outcome = .refused (.invalidStride stride line) left) ↔
        layout.lumaStride < width ∨ layout.chromaStride < 2 * chromaCount width) ∧
      ((∃ needed available left, outcome = .refused (.sourceTooSmall needed available) left) ↔
        StridesSuffice width layout ∧ ¬ SourceSuffices source width height layout) ∧
      ((∃ needed available left,
          outcome = .refused (.destinationTooSmall needed available) left) ↔
        StridesSuffice width layout ∧ SourceSuffices source width height layout ∧
          destination.size < frameBytes width height) ∧
      (∀ error left, outcome = .refused error left → left = destination) ∧
      ((∃ written, outcome = .written written) ↔
        StridesSuffice width layout ∧ SourceSuffices source width height layout ∧
          frameBytes width height ≤ destination.size) ∧
      (∀ written, outcome = .written written →
        Packed source destination written width height layout) ∧
      outcome ≠ .aborted := by
  intro outcome
  have hconverts : Converts source destination width height layout outcome :=
    deinterleave_converts source destination hwidth hfits
  rw [sourceSuffices_iff hwidth]
  clear_value outcome
  cases hconverts with
  | shortLuma luma =>
      have hstrides : ¬ StridesSuffice width layout := fun h => absurd h.luma (by omega)
      simp [luma, hstrides]
  | shortChroma luma chroma =>
      have hstrides : ¬ StridesSuffice width layout := fun h => absurd h.chroma (by omega)
      simp [chroma, hstrides]
  | shortSource strides short =>
      have hstrides := stridesSuffice_iff.mp strides
      simp [hstrides, strides, Nat.not_le.mpr short]
  | shortDestination strides enough short =>
      have hstrides := stridesSuffice_iff.mp strides
      simp [hstrides, strides, enough, short, Nat.not_le.mpr short]
  | written strides enough room =>
      have hstrides := stridesSuffice_iff.mp strides
      simp [hstrides, strides, enough, room, Nat.not_lt.mpr room, packed_picture enough room]

/-- A source of three by three pixels with padding in both planes. -/
def paddedSource : Bytes :=
  #[1, 2, 3, 0, 4, 5, 6, 0, 7, 8, 9, 30, 40, 31, 41, 0, 32, 42, 33, 43]

/-- The last luma line ends where the chroma plane begins, and the last chroma
line where the source does. -/
theorem deinterleave_exact_padded :
    1 ≤ 3 ∧ SizesFit 3 3 ⟨4, 5, 0, 11⟩ ∧
      ∃ written, deinterleave paddedSource (Array.replicate 19 255) 3 3 ⟨4, 5, 0, 11⟩ =
          .written written ∧
        Packed paddedSource (Array.replicate 19 255) written 3 3 ⟨4, 5, 0, 11⟩ := by
  have hfits : SizesFit 3 3 ⟨4, 5, 0, 11⟩ := by decide
  have hexact := deinterleave_exact paddedSource (Array.replicate 19 255) 3 3 ⟨4, 5, 0, 11⟩
    (by decide) hfits
  obtain ⟨written, hwritten⟩ := hexact.2.2.2.2.1.mpr (by decide)
  exact ⟨by decide, hfits, written, hwritten, hexact.2.2.2.2.2.1 written hwritten⟩

end Simulcast
