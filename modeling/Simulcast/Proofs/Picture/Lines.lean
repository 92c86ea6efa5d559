import Mathlib.Data.List.Basic
import Simulcast.Picture.Interleaved

/-!
Cutting buffers into lines and copying lines, where the buffers are long enough:
every cut is one, no read or copy reaches past an end, and what comes out is
known byte by byte.
-/

namespace Simulcast

variable {bytes source plane : Bytes} {lines : List Bytes}

/-- Whatever is done to the members of a list succeeds if it does for each. -/
theorem mapM_map_eq {α β γ : Type} {f : α → β} {g : β → Option γ} {result : α → γ} {l : List α}
    (h : ∀ a ∈ l, g (f a) = some (result a)) : (l.map f).mapM g = some (l.map result) := by
  induction l with
  | nil => rfl
  | cons a rest ih =>
      have hrest := ih fun b hb => h b (by simp [hb])
      simp [h a (by simp), hrest]

theorem slice?_eq {start stop : Nat} (horder : start ≤ stop) (hstop : stop ≤ bytes.size) :
    slice? bytes start stop = some (bytes.extract start stop) :=
  if_pos ⟨horder, hstop⟩

/-- The piece numbered `k` of a buffer cut into pieces of `size` bytes. -/
def piece (bytes : Bytes) (size k : Nat) : Bytes := bytes.extract (k * size) ((k + 1) * size)

theorem piece_size {size k : Nat} (h : (k + 1) * size ≤ bytes.size) :
    (piece bytes size k).size = size := by
  rw [piece, Array.size_extract_of_le h, Nat.succ_mul, Nat.add_sub_cancel_left]

theorem pieces?_eq {size : Nat} (hsize : 0 < size) :
    pieces? bytes size =
      some ((List.range ((bytes.size + size - 1) / size)).map (piece bytes size)) :=
  if_neg (by omega)

/-- A buffer with `n` lines, the last of which may lack its padding, has as many pieces. -/
theorem le_pieces {size n : Nat} (hsize : 0 < size) (h : n = 0 ∨ size * (n - 1) < bytes.size) :
    n ≤ (bytes.size + size - 1) / size := by
  rw [Nat.le_div_iff_mul_le hsize]
  cases n with
  | zero => simp
  | succ m =>
      have hlast : size * m < bytes.size := by simpa using h
      rw [Nat.succ_mul, Nat.mul_comm m size]
      omega

/-- The line numbered `y` of a plane, without its padding. -/
def sourceLine (source : Bytes) (offset stride line y : Nat) : Bytes :=
  source.extract (offset + y * stride) (offset + y * stride + line)

theorem offset_le_planeEnd (offset stride line lines : Nat) :
    offset ≤ planeEnd offset stride line lines := by
  unfold planeEnd
  split <;> omega

theorem lineEnd_le_planeEnd {offset stride line lines y : Nat} (hy : y < lines) :
    offset + y * stride + line ≤ planeEnd offset stride line lines := by
  have hlines : lines ≠ 0 := by omega
  have hlast : stride * y ≤ stride * (lines - 1) := Nat.mul_le_mul_left stride (by omega)
  rw [planeEnd, if_neg hlines, Nat.mul_comm y stride]
  omega

/-- Every byte of a plane is in the source. If there are no lines, the plane only
has to start there. -/
structure HoldsPlane (source : Bytes) (offset stride line lines : Nat) : Prop where
  start : lines = 0 → offset ≤ source.size
  bytes : ∀ x < line, ∀ y < lines, offset + y * stride + x < source.size

instance (source : Bytes) (offset stride line lines : Nat) :
    Decidable (HoldsPlane source offset stride line lines) :=
  decidable_of_iff ((lines = 0 → offset ≤ source.size) ∧
      ∀ x < line, ∀ y < lines, offset + y * stride + x < source.size)
    ⟨fun h => ⟨h.1, h.2⟩, fun h => ⟨h.1, h.2⟩⟩

theorem holdsPlane_iff {offset stride line lines : Nat} (hline : 0 < line) :
    HoldsPlane source offset stride line lines ↔
      planeEnd offset stride line lines ≤ source.size := by
  constructor
  · rintro ⟨hstart, hbytes⟩
    unfold planeEnd
    split
    next hnone => exact hstart hnone
    next hsome =>
      have hlast := hbytes (line - 1) (by omega) (lines - 1) (by omega)
      rw [Nat.mul_comm] at hlast
      omega
  · intro hend
    refine ⟨fun _ => Nat.le_trans (offset_le_planeEnd ..) hend, ?_⟩
    intro x hx y hy
    have hlineEnd := Nat.le_trans (lineEnd_le_planeEnd hy) hend
    omega

theorem sourceLine_size {offset stride line lines y : Nat} (hy : y < lines)
    (hend : planeEnd offset stride line lines ≤ source.size) :
    (sourceLine source offset stride line y).size = line := by
  have hline := Nat.le_trans (lineEnd_le_planeEnd hy) hend
  rw [sourceLine, Array.size_extract_of_le hline, Nat.add_sub_cancel_left]

theorem sourceLine_getElem? {offset stride line lines y x : Nat} (hy : y < lines)
    (hend : planeEnd offset stride line lines ≤ source.size) (hx : x < line) :
    (sourceLine source offset stride line y)[x]? = source[offset + y * stride + x]? := by
  have hline := Nat.le_trans (lineEnd_le_planeEnd hy) hend
  rw [sourceLine, Array.getElem?_extract, if_pos (by omega)]

/-- A line is inside the piece of the plane with its number. -/
theorem slice?_piece {offset stride line lines y : Nat} (hstride : line ≤ stride)
    (hy : y < lines) (hend : planeEnd offset stride line lines ≤ source.size) :
    slice? (piece (source.extract offset source.size) stride y) 0 line =
      some (sourceLine source offset stride line y) := by
  have hline := Nat.le_trans (lineEnd_le_planeEnd hy) hend
  have hnext : (y + 1) * stride = y * stride + stride := Nat.succ_mul y stride
  rw [slice?_eq (Nat.zero_le line)]
  · rw [piece, sourceLine, Array.extract_extract, Array.extract_extract]
    congr 2
    omega
  · rw [piece, Array.size_extract, Array.size_extract]
    omega

theorem planeLines?_eq {offset stride line lines : Nat} (hline : 0 < line)
    (hstride : line ≤ stride) (hend : planeEnd offset stride line lines ≤ source.size) :
    planeLines? source offset stride line lines =
      some ((List.range lines).map (sourceLine source offset stride line)) := by
  have hoffset : offset ≤ source.size := Nat.le_trans (offset_le_planeEnd ..) hend
  -- The source may end inside the padding of the last line.
  have hcount : lines ≤ ((source.extract offset source.size).size + stride - 1) / stride := by
    apply le_pieces (by omega)
    by_cases hzero : lines = 0
    · exact Or.inl hzero
    · rw [planeEnd, if_neg hzero] at hend
      rw [Array.size_extract_of_le (Nat.le_refl _)]
      exact Or.inr (by omega)
  have hread : ∀ y ∈ List.range lines,
      slice? (piece (source.extract offset source.size) stride y) 0 line =
        some (sourceLine source offset stride line y) :=
    fun y hy => slice?_piece hstride (List.mem_range.mp hy) hend
  simp only [planeLines?, slice?_eq hoffset (Nat.le_refl _), pieces?_eq (show 0 < stride by omega),
    Option.bind_eq_bind, Option.bind_some]
  rw [← List.map_take, List.take_range, Nat.min_eq_left hcount]
  exact mapM_map_eq hread

theorem flatten_cons (l : Bytes) (lines : List Bytes) :
    (l :: lines).toArray.flatten = l ++ lines.toArray.flatten := by
  apply Array.toList_inj.mp
  rw [Array.toList_append, Array.toList_flatten, Array.toList_flatten]
  rfl

theorem flatten_size {line : Nat} (hlines : ∀ l ∈ lines, l.size = line) :
    lines.toArray.flatten.size = lines.length * line := by
  induction lines with
  | nil => simp
  | cons l rest ih =>
      have hrest := ih fun l hl => hlines l (by simp [hl])
      rw [flatten_cons, Array.size_append, hrest, hlines l (by simp), List.length_cons,
        Nat.succ_mul, Nat.add_comm]

theorem flatten_getElem? {line x y : Nat} (hlines : ∀ l ∈ lines, l.size = line) (hx : x < line) :
    lines.toArray.flatten[y * line + x]? = lines[y]?.bind fun l => l[x]? := by
  induction lines generalizing y with
  | nil => simp
  | cons l rest ih =>
      have hl : l.size = line := hlines l (by simp)
      rw [flatten_cons]
      cases y with
      | zero =>
          rw [Nat.zero_mul, Nat.zero_add, Array.getElem?_append_left (by omega)]
          rfl
      | succ y =>
          have hindex : (y + 1) * line + x = l.size + (y * line + x) := by
            rw [Nat.succ_mul, hl]
            omega
          rw [hindex, Array.getElem?_append_right (by omega), Nat.add_sub_cancel_left,
            ih fun l hl => hlines l (by simp [hl]), List.getElem?_cons_succ]

theorem replaceLines?_eq {new old : List Bytes} (hlength : new.length ≤ old.length)
    (hsizes : ∀ pair ∈ new.zip old, pair.1.size = pair.2.size) :
    replaceLines? new old = some (new ++ old.drop new.length) := by
  induction new generalizing old with
  | nil => simp [replaceLines?]
  | cons line rest ih =>
      cases old with
      | nil => simp at hlength
      | cons first others =>
          have hrest : replaceLines? rest others = some (rest ++ others.drop rest.length) :=
            ih (by simpa using hlength) fun pair hpair => hsizes pair (by simp [hpair])
          have hfirst : line.size = first.size := hsizes (line, first) (by simp)
          simp [replaceLines?, hfirst, hrest]

/-- Pieces in a row, put end to end. -/
theorem flatten_pieces (plane : Bytes) (size first count : Nat) :
    ((List.range' first count).map (piece plane size)).toArray.flatten =
      plane.extract (first * size) ((first + count) * size) := by
  induction count generalizing first with
  | zero => exact (Array.extract_empty_of_stop_le_start (Nat.le_refl _)).symm
  | succ count ih =>
      have hnext : first * size ≤ (first + 1) * size := Nat.mul_le_mul_right size (by omega)
      have hlast : (first + 1) * size ≤ (first + 1 + count) * size :=
        Nat.mul_le_mul_right size (by omega)
      rw [List.range'_succ, List.map_cons, flatten_cons, ih, piece, Array.extract_append_extract,
        Nat.min_eq_left hnext, Nat.max_eq_right hlast]
      congr 2
      omega

theorem overwrite?_eq {line : Nat} (hline : 0 < line) (hlines : ∀ l ∈ lines, l.size = line)
    (hsize : lines.length * line ≤ plane.size) :
    overwrite? plane line lines =
      some (lines.toArray.flatten ++ plane.extract (lines.length * line) plane.size) := by
  have hcount : lines.length ≤ (plane.size + line - 1) / line := by
    rw [Nat.le_div_iff_mul_le hline]
    omega
  have hends : plane.size ≤ (plane.size + line - 1) / line * line := by
    have hdiv := Nat.div_add_mod (plane.size + line - 1) line
    have hmod := Nat.mod_lt (plane.size + line - 1) hline
    rw [Nat.mul_comm] at hdiv
    omega
  -- Only the last of the old lines can be short, and it is replaced only if it is not.
  have hreplace : replaceLines? lines
      ((List.range ((plane.size + line - 1) / line)).map (piece plane line)) =
        some (lines ++ ((List.range ((plane.size + line - 1) / line)).map
          (piece plane line)).drop lines.length) := by
    apply replaceLines?_eq (by simpa using hcount)
    intro pair hpair
    obtain ⟨y, hy, heq⟩ := List.getElem_of_mem hpair
    have hshort : y < lines.length := by
      rw [List.length_zip] at hy
      omega
    have hfits : (y + 1) * line ≤ plane.size :=
      Nat.le_trans (Nat.mul_le_mul_right line (by omega)) hsize
    rw [List.getElem_zip, List.getElem_map, List.getElem_range] at heq
    rw [← heq, piece_size hfits]
    exact hlines _ (List.getElem_mem _)
  simp only [overwrite?, pieces?_eq hline, hreplace, Option.bind_eq_bind, Option.bind_some,
    Option.pure_def]
  rw [← List.map_drop, List.range_eq_range', List.drop_range', ← List.append_toArray,
    Array.flatten_append, Nat.mul_one, flatten_pieces, Nat.zero_add, Nat.add_sub_cancel' hcount]
  congr 2
  rw [Array.extract_eq_extract_right]
  omega

/-- A plane that consists of as many lines is replaced as a whole. -/
theorem overwrite?_all {line : Nat} (hline : 0 < line) (hlines : ∀ l ∈ lines, l.size = line)
    (hsize : plane.size = lines.length * line) :
    overwrite? plane line lines = some lines.toArray.flatten := by
  rw [overwrite?_eq hline hlines (Nat.le_of_eq hsize.symm), ← hsize,
    Array.extract_empty_of_size_le_start (Nat.le_refl _), Array.append_empty]

/-- Every other byte of a line, from the one numbered `first` on. -/
def everyOther (first : Nat) (row : Bytes) : Bytes :=
  ((List.range (row.size / 2)).map fun x => row.getD (2 * x + first) 0).toArray

theorem everyOther_size (first : Nat) (row : Bytes) :
    (everyOther first row).size = row.size / 2 := by
  simp [everyOther]

theorem everyOther_getElem? {first x : Nat} {row : Bytes} (hfirst : first < 2)
    (hx : x < row.size / 2) : (everyOther first row)[x]? = row[2 * x + first]? := by
  have hindex : 2 * x + first < row.size := by omega
  simp [everyOther, hx, Array.getD, hindex]

theorem separate?_eq {row : Bytes} (heven : row.size % 2 = 0) :
    separate? row = some (everyOther 0 row, everyOther 1 row) := by
  have hcount : (row.size + 2 - 1) / 2 = row.size / 2 := by omega
  have hpick : ∀ first < 2, ((List.range (row.size / 2)).map (piece row 2)).mapM
      (fun pair => pair[first]?) = some (everyOther first row).toList := by
    intro first hfirst
    rw [everyOther]
    apply mapM_map_eq
    intro x hx
    rw [List.mem_range] at hx
    have hindex : 2 * x + first < row.size := by omega
    rw [piece, Array.getElem?_extract, if_pos (by omega), Nat.mul_comm x 2, Array.getD,
      dif_pos hindex, Array.getElem?_eq_getElem hindex]
    rfl
  simp only [separate?, pieces?_eq (show 0 < 2 by omega), hcount, Option.bind_eq_bind,
    Option.bind_some, Option.pure_def, hpick 0 (by omega), hpick 1 (by omega), Array.toArray_toList]

end Simulcast
