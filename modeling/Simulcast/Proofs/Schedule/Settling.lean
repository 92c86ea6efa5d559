import Mathlib.Data.List.Basic
import Simulcast.Schedule

/-!
What marking and settling do to the single entries of a schedule. Marking only
ever raises an entry to a key frame. Settling an encode call lowers exactly the
entries that ask for a key frame while the call carried one, and it does so
whether or not the request is the one the call was made for.
-/

namespace Simulcast.Schedule

/-- The schedule with a key frame wanted on stream `i`, if there is such a
stream. -/
def mark (s : Schedule) (i : Nat) : Schedule :=
  { s with kinds := s.kinds.set i .key }

@[simp]
theorem mark_generation (s : Schedule) (i : Nat) : (s.mark i).generation = s.generation := rfl

@[simp]
theorem mark_size (s : Schedule) (i : Nat) : (s.mark i).size = s.size := by
  simp [mark, size]

theorem mark_of_size_le (s : Schedule) (i : Nat) (h : s.size ≤ i) : s.mark i = s := by
  have hset : s.kinds.set i .key = s.kinds := List.set_eq_of_length_le h
  simp [mark, hset]

theorem get?_mark_self (s : Schedule) (i : Nat) (h : i < s.size) :
    (s.mark i).get? i = some .key := by
  have hlt : i < s.kinds.length := h
  simp [mark, get?, hlt]

theorem get?_mark_of_key (s : Schedule) (i j : Nat) (h : s.get? j = some .key) :
    (s.mark i).get? j = some .key := by
  by_cases hij : i = j
  · subst hij
    have hlt : i < s.kinds.length := by
      by_contra hge
      simp [get?, List.getElem?_eq_none (Nat.le_of_not_lt hge)] at h
    exact s.get?_mark_self i hlt
  · simpa [mark, get?, List.getElem?_set_ne hij] using h

theorem get?_mark_of_ne (s : Schedule) (i j : Nat) (h : i ≠ j) :
    (s.mark i).get? j = s.get? j := by
  simp [mark, get?, List.getElem?_set_ne h]

theorem requestKey_eq (s : Schedule) (i : Nat) :
    s.requestKey i = if i < s.size then .ok (s.mark i) else .error ⟨i, s.size⟩ := by
  by_cases h : i < s.size <;> simp [requestKey, set, missing?, mark, h]

/-- The schedule with no key frame wanted on stream `i`. -/
def serve (s : Schedule) (i : Nat) : Schedule :=
  { s with kinds := s.kinds.set i .delta }

@[simp]
theorem serve_generation (s : Schedule) (i : Nat) : (s.serve i).generation = s.generation := rfl

@[simp]
theorem serve_size (s : Schedule) (i : Nat) : (s.serve i).size = s.size := by
  simp [serve, size]

theorem get?_serve_self (s : Schedule) (i : Nat) (h : i < s.size) :
    (s.serve i).get? i = some .delta := by
  have hlt : i < s.kinds.length := h
  simp [serve, get?, hlt]

theorem get?_serve_of_ne (s : Schedule) (i j : Nat) (h : i ≠ j) :
    (s.serve i).get? j = s.get? j := by
  simp [serve, get?, List.getElem?_set_ne h]

theorem set_delta_eq (s : Schedule) (i : Nat) :
    s.set i .delta = if i < s.size then .ok (s.serve i) else .error ⟨i, s.size⟩ := by
  by_cases h : i < s.size <;> simp [set, missing?, serve, h]

@[simp]
theorem reset_generation (s : Schedule) (n : Nat) :
    (s.reset n).generation = s.generation + 1 := rfl

@[simp]
theorem reset_kinds (s : Schedule) (n : Nat) :
    (s.reset n).kinds = List.replicate (max 1 n) .key := rfl

@[simp]
theorem reset_size (s : Schedule) (n : Nat) : (s.reset n).size = max 1 n := by
  simp [size]

theorem clearKinds_length (live carried : List FrameKind) :
    (clearKinds live carried).length = live.length := by
  induction live generalizing carried with
  | nil => cases carried <;> rfl
  | cons k rest ih =>
      cases carried with
      | nil => rfl
      | cons c others => simp [clearKinds, ih]

/-- Entry by entry, settling compares what is live with what was carried. -/
theorem clearKinds_getElem? (live carried : List FrameKind) (i : Nat) :
    (clearKinds live carried)[i]? =
      live[i]?.map fun k => if carried[i]? = some k then .delta else k := by
  induction live generalizing carried i with
  | nil => cases carried <;> simp [clearKinds]
  | cons k rest ih =>
      cases carried with
      | nil => simp [clearKinds]
      | cons c others =>
          cases i with
          | zero => simp [clearKinds, eq_comm]
          | succ i => simpa [clearKinds] using ih others i

@[simp]
theorem clearSatisfied_generation (s carried : Schedule) :
    (s.clearSatisfied carried).generation = s.generation := by
  unfold clearSatisfied
  split <;> rfl

@[simp]
theorem clearSatisfied_size (s carried : Schedule) :
    (s.clearSatisfied carried).size = s.size := by
  unfold clearSatisfied size
  split
  · exact clearKinds_length _ _
  · rfl

theorem get?_clearSatisfied (s carried : Schedule) (i : Nat)
    (h : s.generation = carried.generation) :
    (s.clearSatisfied carried).get? i =
      (s.get? i).map fun k => if carried.kinds[i]? = some k then .delta else k := by
  unfold clearSatisfied
  rw [if_pos h]
  exact clearKinds_getElem? s.kinds carried.kinds i

/-- What is left of the requests for stream `i` once a call is settled: a
request stays exactly if the call carried no key frame there. -/
theorem get?_clearSatisfied_eq_key_iff (s carried : Schedule) (i : Nat)
    (h : s.generation = carried.generation) :
    (s.clearSatisfied carried).get? i = some .key ↔
      s.get? i = some .key ∧ carried.kinds[i]? ≠ some .key := by
  rw [get?_clearSatisfied s carried i h]
  cases s.get? i with
  | none => simp
  | some k =>
      by_cases hk : carried.kinds[i]? = some k
      · cases k <;> simp [hk]
      · cases k <;> simp [hk]

/-- Settling leaves an entry alone if the call carried no key frame there. -/
theorem get?_clearSatisfied_of_ne (s carried : Schedule) (i : Nat)
    (h : carried.kinds[i]? ≠ some .key) : (s.clearSatisfied carried).get? i = s.get? i := by
  by_cases hgeneration : s.generation = carried.generation
  · rw [get?_clearSatisfied s carried i hgeneration]
    cases s.get? i with
    | none => rfl
    | some k => cases k <;> simp [h]
  · rw [clearSatisfied, if_neg hgeneration]

end Simulcast.Schedule
