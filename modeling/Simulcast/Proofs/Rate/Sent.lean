import Mathlib.Algebra.GroupWithZero.Nat
import Mathlib.Data.List.Dedup
import Mathlib.Data.List.SplitBy
import Simulcast.Proofs.Rate.History

/-!
Statistics of what was sent. Whatever a regulator was asked before, they are
those of the images of the last second: eight bits for each of their bytes, and
as many frames as there are runs of one timestamp. If the images of a timestamp
all follow each other, these are as many as there are timestamps.
-/

namespace Simulcast

namespace Regulator

theorem splitBy_loop_length (l : List UInt32) (a : UInt32) (group : List UInt32)
    (groups : List (List UInt32)) :
    (List.splitBy.loop (· == ·) l a group groups).length = groups.length + runs (a :: l) := by
  induction l generalizing a group groups with
  | nil => simp [List.splitBy.loop, runs]
  | cons b rest ih =>
      by_cases hab : a = b
      · have hsame : (a == b) = true := beq_iff_eq.mpr hab
        simp only [List.splitBy.loop, hsame]
        rw [ih, runs, if_pos hab, Nat.zero_add]
      · have hother : (a == b) = false := beq_eq_false_iff_ne.mpr hab
        simp only [List.splitBy.loop, hother]
        rw [ih, runs, if_neg hab, List.length_cons, Nat.add_assoc]

/-- A list has as many runs as it falls into groups of equal neighbours. -/
theorem runs_eq_length_splitBy (l : List UInt32) : runs l = (l.splitBy (· == ·)).length := by
  cases l with
  | nil => rfl
  | cons a rest => simp [List.splitBy, splitBy_loop_length]

/-- Equal entries have nothing else between them. -/
def Consecutive (l : List UInt32) : Prop :=
  ∀ before a between after, l = before ++ a :: between ++ a :: after → ∀ b ∈ between, b = a

theorem Consecutive.tail {a : UInt32} {l : List UInt32} (h : Consecutive (a :: l)) :
    Consecutive l := by
  intro before b between after heq
  refine h (a :: before) b between after ?_
  rw [heq]
  rfl

theorem Consecutive.not_mem {a b : UInt32} {rest : List UInt32}
    (h : Consecutive (a :: b :: rest)) (hab : a ≠ b) : a ∉ b :: rest := by
  intro hmem
  obtain hfirst | hrest := List.mem_cons.mp hmem
  · exact hab hfirst
  · obtain ⟨between, after, rfl⟩ := List.append_of_mem hrest
    exact hab (h [] a (b :: between) after rfl b (List.mem_cons_self ..)).symm

/-- Timestamps that never go back are consecutive. -/
theorem consecutive_of_pairwise {l : List UInt32} (h : l.Pairwise (· ≤ ·)) : Consecutive l := by
  rintro before a between after rfl b hb
  have hrest : (a :: (between ++ a :: after)).Pairwise (· ≤ ·) := by
    rw [List.append_assoc, List.pairwise_append] at h
    exact h.2.1
  rw [List.pairwise_cons, List.pairwise_append] at hrest
  obtain ⟨hfirst, -, -, hlast⟩ := hrest
  exact UInt32.le_antisymm (hlast b hb a (List.mem_cons_self ..))
    (hfirst b (List.mem_append_left _ hb))

/-- Where equal entries follow each other there is one run for each of them. -/
theorem Consecutive.runs_eq {l : List UInt32} (h : Consecutive l) : runs l = l.dedup.length := by
  induction l with
  | nil => rfl
  | cons a rest ih =>
      have hrest := ih h.tail
      cases rest with
      | nil => rfl
      | cons b others =>
          by_cases hab : a = b
          · have hmem : a ∈ b :: others := hab ▸ List.mem_cons_self ..
            rw [runs, if_pos hab, Nat.zero_add, hrest, List.dedup_cons_of_mem hmem]
          · rw [runs, if_neg hab, hrest, List.dedup_cons_of_notMem (h.not_mem hab),
              List.length_cons, Nat.add_comm]

variable {h : History} {now : Millis} {r : Regulator}

theorem bytesOf_eq_sum (samples : List SentSample) :
    bytesOf samples = (samples.map (·.size)).sum := by
  rw [bytesOf, List.sum_eq_foldl, List.foldl_map]

/-- As long as the words hold eight thousand times the bytes, the bitrate is
what is left of eight times the bytes in 32 bits. -/
theorem bitrateOf_toNat {samples : List SentSample}
    (hfits : 8000 * bytesOf samples < UInt64.size) :
    (bitrateOf samples).toNat = 8 * bytesOf samples % UInt32.size := by
  have hwindow : (UInt64.ofNat sentWindow.toNat).toNat = 1000 := rfl
  rw [bitrateOf]
  generalize bytesOf samples = bytes at hfits
  have hbytes : (UInt64.ofNat bytes).toNat = bytes := UInt64.toNat_ofNat_of_lt' (by omega)
  have height : (UInt64.ofNat bytes * 8).toNat = bytes * 8 := by
    rw [UInt64.toNat_mul, hbytes]
    exact Nat.mod_eq_of_lt (show bytes * 8 < UInt64.size by omega)
  have hthousand : (UInt64.ofNat bytes * 8 * 1000).toNat = bytes * 8 * 1000 := by
    rw [UInt64.toNat_mul, height]
    exact Nat.mod_eq_of_lt (show bytes * 8 * 1000 < UInt64.size by omega)
  rw [UInt64.toNat_toUInt32, UInt64.toNat_div, hthousand, hwindow,
    Nat.mul_div_cancel _ (by decide), Nat.mul_comm]

theorem frameRateOf_toNat (samples : List SentSample) :
    (frameRateOf samples).toNat = runs (samples.map (·.timestamp)) % UInt32.size := by
  have hwindow : sentWindow.toNat = 1000 := rfl
  rw [frameRateOf, hwindow, Nat.mul_div_cancel _ (by decide), UInt32.toNat_ofNat']

/-- The statistics are those of the images of the last second, whatever was asked
before: the bitrate goes by their sizes and the frame rate by their timestamps. -/
theorem statistics_windowed (requests : List Request) (now : Millis)
    (horder : InOrder (requests ++ [.sentBitrate now])) :
    let r := run {} requests
    let images := (history requests).sent.filter fun s => now - s.completed < 1000
    let timestamps := images.map (·.timestamp)
    (8000 * (images.map (·.size)).sum < UInt64.size →
        (r.sentBitrate now).2.toNat = 8 * (images.map (·.size)).sum % UInt32.size) ∧
      (r.sentFrameRate now).2.toNat = (timestamps.splitBy (· == ·)).length % UInt32.size ∧
      (Consecutive timestamps → (timestamps.splitBy (· == ·)).length = timestamps.dedup.length) ∧
      (∀ others, InOrder (others ++ [.sentBitrate now]) →
        (history others).sent = (history requests).sent →
          ((run {} others).sentBitrate now).2 = (r.sentBitrate now).2 ∧
            ((run {} others).sentFrameRate now).2 = (r.sentFrameRate now).2) := by
  have hremembers : ∀ requests, InOrder (requests ++ [.sentBitrate now]) →
      (run {} requests).Remembers (history requests) now := by
    intro requests horder
    obtain ⟨time, hr, htime⟩ := remembers_of_inOrder horder
    exact hr.later (List.pairwise_pair.mp htime)
  have hr := hremembers requests horder
  have himages : (history requests).countedImages now =
      (history requests).sent.filter fun s => now - s.completed < 1000 := rfl
  refine ⟨?_, ?_, ?_, ?_⟩
  · intro hfits
    rw [← bytesOf_eq_sum] at hfits ⊢
    rw [hr.sentBitrate_eq, himages]
    exact bitrateOf_toNat hfits
  · rw [hr.sentFrameRate_eq, frameRateOf_toNat, runs_eq_length_splitBy, himages]
  · intro hconsecutive
    rw [← runs_eq_length_splitBy, hconsecutive.runs_eq]
  · intro others hothers hsent
    have hwindow : (history others).countedImages now = (history requests).countedImages now := by
      rw [History.countedImages, hsent]
      rfl
    have ho := hremembers others hothers
    rw [ho.sentBitrate_eq, ho.sentFrameRate_eq, hr.sentBitrate_eq, hr.sentFrameRate_eq, hwindow]
    exact ⟨rfl, rfl⟩

/-- Two streams of three frames, and one more image of the last one. -/
def layered : List Request :=
  [.account 0 4000 0, .account 5 1000 0, .account 400 1000 3000, .account 410 500 3000,
    .account 1200 1000 6000, .account 1210 500 6000, .account 1215 500 6000]

/-- Of three frames two were sent during the last second. A look at the bitrate
in between, which makes the regulator forget the first of them, changes nothing. -/
theorem statistics_windowed_layered :
    InOrder (layered ++ [.sentBitrate 1300]) ∧
      ((run {} layered).sentBitrate 1300).2.toNat = 28000 ∧
      ((run {} layered).sentFrameRate 1300).2.toNat = 2 ∧
      (((history layered).sent.filter fun s => 1300 - s.completed < 1000).map
        (·.timestamp)).dedup.length = 2 ∧
      InOrder ((layered ++ [.sentBitrate 1250]) ++ [.sentBitrate 1300]) ∧
      ((run {} (layered ++ [.sentBitrate 1250])).sentFrameRate 1300).2 =
        ((run {} layered).sentFrameRate 1300).2 := by
  have horder : InOrder (layered ++ [.sentBitrate 1300]) := by decide
  have hothers : InOrder ((layered ++ [.sentBitrate 1250]) ++ [.sentBitrate 1300]) := by decide
  obtain ⟨hbitrate, hframes, hdistinct, hsame⟩ := statistics_windowed layered 1300 horder
  have hconsecutive : Consecutive (((history layered).sent.filter
      fun s => 1300 - s.completed < 1000).map (·.timestamp)) :=
    consecutive_of_pairwise (by decide)
  have htwo : ((((history layered).sent.filter fun s => 1300 - s.completed < 1000).map
      (·.timestamp)).splitBy (· == ·)).length = 2 := by decide
  refine ⟨horder, hbitrate (by decide), ?_, ?_, hothers, (hsame _ hothers rfl).2⟩
  · exact hframes.trans (htwo ▸ (by decide : 2 % UInt32.size = 2))
  · rw [← hdistinct hconsecutive, htwo]

end Regulator

end Simulcast
