import Simulcast.Proofs.Rate.History

/-!
The estimated rate of incoming frames. Whatever a regulator was asked before, the
estimate is that of a window of the whole history: the last arrivals as many as
are kept, without those that are too old. It is zero if they do not span any
time, and otherwise the intervals between them by the time they span, which is
never less than one frame per second and fits a word. As a question can only
make the regulator forget what does not count any more, no later answer depends
on which questions were put before it.
-/

namespace Simulcast

namespace Regulator

/-- The arrivals do not span any time. -/
def Spanless (window : List Millis) : Prop :=
  window.length < 2 ∨ ∀ s ∈ window, ∀ t ∈ window, s = t

instance (window : List Millis) : Decidable (Spanless window) :=
  inferInstanceAs (Decidable (_ ∨ _))

/-- From the oldest arrival to the newest. -/
def span (window : List Millis) : Millis := window.max?.getD 0 - window.min?.getD 0

/-- Frames per second over a window, rounded to nearest. -/
def windowedRate (window : List Millis) : Int :=
  if Spanless window then 0
  else (((window.length : Int) - 1) * 1000 + span window / 2) / span window

variable {window : List Millis} {first last : Millis}

theorem windowedRate_of_spanless (h : Spanless window) : windowedRate window = 0 := if_pos h

theorem first_le (hordered : window.Pairwise (· ≤ ·)) (hfirst : window.head? = some first) :
    ∀ t ∈ window, first ≤ t := by
  obtain ⟨rest, rfl⟩ := List.head?_eq_some_iff.mp hfirst
  intro t ht
  rcases List.mem_cons.mp ht with rfl | hrest
  · exact Int.le_refl _
  · exact (List.pairwise_cons.mp hordered).1 t hrest

theorem le_last (hordered : window.Pairwise (· ≤ ·)) (hlast : window.getLast? = some last) :
    ∀ t ∈ window, t ≤ last := by
  obtain ⟨before, rfl⟩ := List.getLast?_eq_some_iff.mp hlast
  intro t ht
  rcases List.mem_append.mp ht with hbefore | heq
  · exact (pairwise_concat_iff.mp hordered).2 t hbefore
  · exact Int.le_of_eq (List.mem_singleton.mp heq)

theorem span_eq (hordered : window.Pairwise (· ≤ ·)) (hfirst : window.head? = some first)
    (hlast : window.getLast? = some last) : span window = last - first := by
  have hmin : window.min? = some first :=
    List.min?_eq_some_iff.mpr ⟨List.mem_of_head? hfirst, first_le hordered hfirst⟩
  have hmax : window.max? = some last :=
    List.max?_eq_some_iff.mpr ⟨List.mem_of_getLast? hlast, le_last hordered hlast⟩
  rw [span, hmin, hmax]
  rfl

theorem spanless_iff (hordered : window.Pairwise (· ≤ ·)) (hfirst : window.head? = some first)
    (hlast : window.getLast? = some last) : Spanless window ↔ last - first ≤ 0 := by
  constructor
  · rintro (hshort | hsame)
    · obtain ⟨rest, rfl⟩ := List.head?_eq_some_iff.mp hfirst
      rw [List.length_cons] at hshort
      have hrest : rest = [] := List.eq_nil_of_length_eq_zero (by omega)
      subst hrest
      have heq : first = last := by simpa using hlast
      simp [heq]
    · have heq := hsame last (List.mem_of_getLast? hlast) first (List.mem_of_head? hfirst)
      simp [heq]
  · intro hspan
    have hle : last ≤ first := Int.le_of_sub_nonpos hspan
    have hbetween : ∀ s ∈ window, ∀ t ∈ window, s ≤ t := by
      intro s hs t ht
      exact Int.le_trans (le_last hordered hlast s hs)
        (Int.le_trans hle (first_le hordered hfirst t ht))
    exact Or.inr fun s hs t ht => Int.le_antisymm (hbetween s hs t ht) (hbetween t ht s hs)

/-- At most ninety frames in at most two seconds, but in some time. -/
theorem rate_bounds {count : Nat} {time : Int} (hcount : 2 ≤ count) (hcapacity : count ≤ 90)
    (hpositive : 0 < time) (hwindow : time ≤ 2000) :
    1 ≤ (((count : Int) - 1) * 1000 + time / 2) / time ∧
      (((count : Int) - 1) * 1000 + time / 2) / time ≤ 89000 := by
  constructor
  · rw [Int.le_ediv_iff_mul_le hpositive]
    omega
  · apply Int.ediv_le_of_le_mul hpositive
    omega

theorem exists_ends (hne : window ≠ []) :
    ∃ first last, window.head? = some first ∧ window.getLast? = some last :=
  ⟨window.head hne, window.getLast hne, List.head?_eq_some_head hne,
    List.getLast?_eq_some_getLast hne⟩

theorem windowedRate_bounds (hordered : window.Pairwise (· ≤ ·))
    (hcapacity : window.length ≤ arrivalCapacity)
    (hwindow : ∀ s ∈ window, ∀ t ∈ window, t - s ≤ arrivalWindow) (hspan : ¬ Spanless window) :
    1 ≤ windowedRate window ∧ windowedRate window ≤ 89000 := by
  have hcount : 2 ≤ window.length := by
    have hshort := mt Or.inl hspan
    omega
  have hne : window ≠ [] := List.ne_nil_of_length_pos (by omega)
  obtain ⟨first, last, hfirst, hlast⟩ := exists_ends hne
  have hpositive : 0 < last - first := by
    rw [spanless_iff hordered hfirst hlast] at hspan
    exact Int.not_le.mp hspan
  rw [windowedRate, if_neg hspan, span_eq hordered hfirst hlast]
  exact rate_bounds hcount hcapacity hpositive
    (hwindow first (List.mem_of_head? hfirst) last (List.mem_of_getLast? hlast))

/-- The estimate is the rate of the window, exactly. -/
theorem arrivalRate_eq (hordered : window.Pairwise (· ≤ ·))
    (hcapacity : window.length ≤ arrivalCapacity)
    (hwindow : ∀ s ∈ window, ∀ t ∈ window, t - s ≤ arrivalWindow) :
    ((arrivalRate window).toNat : Int) = windowedRate window := by
  by_cases hne : window = []
  · subst hne
    rfl
  · obtain ⟨first, last, hfirst, hlast⟩ := exists_ends hne
    have hlength : 0 < window.length := List.length_pos_of_ne_nil hne
    have hrate : arrivalRate window = if last - first ≤ 0 then 0 else UInt32.ofNat
        ((((window.length - 1 : Nat) : Int) * 1000 + (last - first) / 2) / (last - first)).toNat := by
      simp only [arrivalRate, hfirst, hlast]
    by_cases hspan : Spanless window
    · rw [hrate, if_pos ((spanless_iff hordered hfirst hlast).mp hspan),
        windowedRate_of_spanless hspan]
      rfl
    · obtain ⟨hpositive, hbounded⟩ := windowedRate_bounds hordered hcapacity hwindow hspan
      have hvalue : windowedRate window = (((window.length - 1 : Nat) : Int) * 1000 +
          (last - first) / 2) / (last - first) := by
        rw [windowedRate, if_neg hspan, span_eq hordered hfirst hlast, Int.ofNat_sub hlength]
        rfl
      rw [hrate, if_neg (mt (spanless_iff hordered hfirst hlast).mpr hspan), ← hvalue,
        UInt32.toNat_ofNat_of_lt' (by simp only [UInt32.size]; omega), Int.toNat_of_nonneg (by omega)]

variable {h : History} {now : Millis}

theorem countedArrivals_ordered (hordered : (h.arrivals ++ [now]).Pairwise (· ≤ ·)) :
    (h.countedArrivals now).Pairwise (· ≤ ·) :=
  (pairwise_concat_iff.mp hordered).1.sublist
    (List.filter_sublist.trans (List.drop_sublist _ _))

theorem countedArrivals_length_le (h : History) (now : Millis) :
    (h.countedArrivals now).length ≤ arrivalCapacity :=
  (List.length_filter_le _ _).trans (length_rtake_le h.arrivals arrivalCapacity)

theorem mem_countedArrivals {t : Millis} (ht : t ∈ h.countedArrivals now) :
    t ∈ h.arrivals ∧ now - t ≤ arrivalWindow := by
  obtain ⟨hlast, hrecent⟩ := List.mem_filter.mp ht
  exact ⟨List.mem_of_mem_drop hlast, of_decide_eq_true hrecent⟩

theorem countedArrivals_within (hordered : (h.arrivals ++ [now]).Pairwise (· ≤ ·)) :
    ∀ s ∈ h.countedArrivals now, ∀ t ∈ h.countedArrivals now, t - s ≤ arrivalWindow := by
  intro s hs t ht
  have hbefore : t ≤ now := (pairwise_concat_iff.mp hordered).2 t (mem_countedArrivals ht).1
  exact Int.le_trans (Int.sub_le_sub_right hbefore s) (mem_countedArrivals hs).2

/-- The estimate of a regulator that remembers its history. -/
theorem Remembers.estimate {r : Regulator} (hr : r.Remembers h now) :
    ((r.frameRate now).2.toNat : Int) = windowedRate (h.countedArrivals now) ∧
      (¬ Spanless (h.countedArrivals now) →
        1 ≤ windowedRate (h.countedArrivals now) ∧
          windowedRate (h.countedArrivals now) ≤ 89000) := by
  have hordered := countedArrivals_ordered hr.arrivalsOrdered
  have hcapacity := countedArrivals_length_le h now
  have hwithin := countedArrivals_within hr.arrivalsOrdered
  rw [hr.frameRate_eq]
  exact ⟨arrivalRate_eq hordered hcapacity hwithin,
    windowedRate_bounds hordered hcapacity hwithin⟩

/-- The estimate is the rate of a window of the history, whatever was asked
before, and questions put in between change no later answer, nor anything that
can be read off. -/
theorem frameRate_windowed (requests : List Request) :
    (∀ now, InOrder (requests ++ [.frameRate now]) →
        let window := ((history requests).arrivals.rtake 90).filter fun t => now - t ≤ 2000
        (((run {} requests).frameRate now).2.toNat : Int) = windowedRate window ∧
          (¬ Spanless window → 1 ≤ windowedRate window ∧ windowedRate window ≤ 89000)) ∧
      (∀ padded request, Padded requests padded → InOrder (padded ++ [request]) →
        ((run {} padded).perform request).2 = ((run {} requests).perform request).2) ∧
      ∀ padded, Padded requests padded → (run {} padded).settings = (run {} requests).settings := by
  refine ⟨?_, ?_, fun padded hpadded => hpadded.settings_eq rfl rfl⟩
  · intro now horder
    obtain ⟨time, hr, htime⟩ := remembers_of_inOrder horder
    have hle : time ≤ now := List.pairwise_pair.mp htime
    exact (hr.later hle).estimate
  · intro padded request hpadded horder
    exact hpadded.answer_eq horder

/-- Frames that come in at growing distances. -/
def slowing : List Request :=
  [.dropFrame 0 0, .dropFrame 700 710, .dropFrame 1500 1500, .dropFrame 2900 2905]

/-- Of four frames the last two count. A question long before changes nothing. -/
theorem frameRate_windowed_slowing :
    InOrder (slowing ++ [.frameRate 3000]) ∧
      (((run {} slowing).frameRate 3000).2.toNat : Int) = 1 ∧
      ∃ padded, Padded slowing padded ∧ padded ≠ slowing ∧
        InOrder (padded ++ [.dropFrame 3100 3100]) ∧
        ((run {} padded).perform (.dropFrame 3100 3100)).2 =
          ((run {} slowing).perform (.dropFrame 3100 3100)).2 ∧
        (run {} padded).settings = (run {} slowing).settings := by
  have horder : InOrder (slowing ++ [.frameRate 3000]) := by decide
  have hpadded : Padded slowing
      ([.dropFrame 0 0, .dropFrame 700 710, .frameRate 1000, .dropFrame 1500 1500,
        .frameRate 2800, .dropFrame 2900 2905]) :=
    .cons _ (.cons _ (.query rfl (.cons _ (.query rfl (.cons _ .nil)))))
  have hlater : InOrder ([.dropFrame 0 0, .dropFrame 700 710, .frameRate 1000,
      .dropFrame 1500 1500, .frameRate 2800, .dropFrame 2900 2905] ++ [.dropFrame 3100 3100]) := by
    decide
  have hvalue : windowedRate (((history slowing).arrivals.rtake 90).filter
      fun t => 3000 - t ≤ 2000) = 1 := by decide
  exact ⟨horder, ((frameRate_windowed slowing).1 3000 horder).1.trans hvalue, _, hpadded,
    by decide, hlater, (frameRate_windowed slowing).2.1 _ _ hpadded hlater,
    (frameRate_windowed slowing).2.2 _ hpadded⟩

end Regulator

end Simulcast
