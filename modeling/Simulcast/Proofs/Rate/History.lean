import Mathlib.Data.List.DropRight
import Simulcast.Rate.Request

/-!
What a regulator still has of what came in and what was encoded. Both of its
lists lose their oldest entries at moments that depend on what it is asked, but
nothing is lost that still counts: each list is the history since the last reset
without some first entries that are out of its window for good. So what is left
after looking at a list is the window of the whole history, whatever was asked
before, and questions put in between change no later answer.
-/

namespace Simulcast

variable {α : Type} {stale stale' : α → Bool} {all kept : List α}

/-- `kept` is `all` without some of its first entries, which are all stale. -/
def Trimmed (stale : α → Bool) (all kept : List α) : Prop :=
  ∃ gone, all = gone ++ kept ∧ ∀ a ∈ gone, stale a = true

/-- Whatever comes before a stale entry is stale. -/
def StaleFirst (stale : α → Bool) (l : List α) : Prop :=
  l.Pairwise fun a b => stale b = true → stale a = true

theorem Trimmed.refl (stale : α → Bool) (all : List α) : Trimmed stale all all :=
  ⟨[], rfl, by simp⟩

theorem Trimmed.mono (h : Trimmed stale all kept) (hstale : ∀ a, stale a = true → stale' a = true) :
    Trimmed stale' all kept := by
  obtain ⟨gone, hall, hgone⟩ := h
  exact ⟨gone, hall, fun a ha => hstale a (hgone a ha)⟩

theorem Trimmed.concat (h : Trimmed stale all kept) (a : α) :
    Trimmed stale (all ++ [a]) (kept ++ [a]) := by
  obtain ⟨gone, rfl, hgone⟩ := h
  exact ⟨gone, by simp, hgone⟩

theorem Trimmed.dropWhile (h : Trimmed stale all kept) :
    Trimmed stale all (kept.dropWhile stale) := by
  obtain ⟨gone, rfl, hgone⟩ := h
  refine ⟨gone ++ kept.takeWhile stale, by simp, ?_⟩
  intro a ha
  rcases List.mem_append.mp ha with hold | hnew
  · exact hgone a hold
  · exact List.mem_takeWhile_imp hnew

theorem StaleFirst.dropWhile_eq_filter {l : List α} (h : StaleFirst stale l) :
    l.dropWhile stale = l.filter fun a => !stale a := by
  induction l with
  | nil => rfl
  | cons a rest ih =>
      rw [StaleFirst, List.pairwise_cons] at h
      by_cases ha : stale a = true
      · rw [List.dropWhile_cons_of_pos ha, List.filter_cons_of_neg (by simp [ha])]
        exact ih h.2
      · rw [List.dropWhile_cons_of_neg ha, List.filter_cons_of_pos (by simp [ha]), eq_comm]
        refine congrArg (a :: ·) (List.filter_eq_self.mpr ?_)
        intro b hb
        have hfresh := mt (h.1 b hb) ha
        simpa using hfresh

/-- What is left once all stale entries are gone does not depend on which of
them were gone before. -/
theorem Trimmed.dropWhile_eq (h : Trimmed stale all kept) (hfirst : StaleFirst stale all) :
    kept.dropWhile stale = all.filter fun a => !stale a := by
  obtain ⟨gone, rfl, hgone⟩ := h
  have hkept : StaleFirst stale kept := (List.pairwise_append.mp hfirst).2.1
  have hnone : gone.filter (fun a => !stale a) = [] := by
    rw [List.filter_eq_nil_iff]
    intro a ha
    simp [hgone a ha]
  rw [hkept.dropWhile_eq_filter, List.filter_append, hnone, List.nil_append]

theorem length_rtake_le (l : List α) (n : Nat) : (l.rtake n).length ≤ n := by
  rw [List.rtake, List.length_drop]
  omega

theorem rtake_eq_drop (l : List α) (n : Nat) :
    l.rtake n = (l.rtake (n + 1)).drop ((l.rtake (n + 1)).length - n) := by
  simp only [List.rtake, List.length_drop, List.drop_drop]
  congr 1
  omega

/-- A list of the last entries goes on as such if it loses its first entry
whenever it gets too long. -/
theorem Trimmed.concat_capped {capacity : Nat} (h : Trimmed stale (all.rtake capacity) kept)
    (hpositive : 0 < capacity) (a : α) :
    Trimmed stale ((all ++ [a]).rtake capacity)
      (if (kept ++ [a]).length > capacity then (kept ++ [a]).tail else kept ++ [a]) := by
  obtain ⟨n, rfl⟩ : ∃ n, capacity = n + 1 := ⟨capacity - 1, by omega⟩
  obtain ⟨gone, hall, hgone⟩ := h
  have hlength : gone.length + kept.length ≤ n + 1 := by
    rw [← List.length_append, ← hall]
    exact length_rtake_le all (n + 1)
  have hlast : all.rtake n = (gone ++ kept).drop (gone.length + kept.length - n) := by
    rw [rtake_eq_drop, hall, List.length_append]
  rw [List.rtake_concat_succ, hlast]
  split
  next hlong =>
    -- The list is full, so nothing stale is missing from it.
    rw [List.length_append, List.length_singleton] at hlong
    have hnothing : gone = [] := List.eq_nil_of_length_eq_zero (by omega)
    have hfull : kept.length = n + 1 := by omega
    have hne : kept ≠ [] := List.ne_nil_of_length_pos (by omega)
    subst hnothing
    simp only [List.length_nil, List.nil_append, hfull, Nat.zero_add, Nat.add_sub_cancel_left,
      List.drop_one]
    rw [List.tail_append_of_ne_nil hne]
    exact .refl _ _
  next hshort =>
    rw [List.length_append, List.length_singleton] at hshort
    refine ⟨gone.drop (gone.length + kept.length - n), ?_, ?_⟩
    · rw [List.drop_append_of_le_length (by omega), List.append_assoc]
    · exact fun b hb => hgone b (List.mem_of_mem_drop hb)

namespace Regulator

/-- What came in and what was encoded since the last reset, oldest first. -/
structure History where
  arrivals : List Millis := []
  sent : List SentSample := []

/-- A request adds to the history or clears it. -/
def History.add (h : History) : Request → History
  | .reset | .configure _ => {}
  | .dropFrame arrived _ => { h with arrivals := h.arrivals ++ [arrived] }
  | .account now size timestamp => { h with sent := h.sent ++ [⟨size, timestamp, now⟩] }
  | .feed _ _ _ | .enableDropping _ | .frameRate _ | .sentBitrate _ | .sentFrameRate _ => h

def history (requests : List Request) : History := requests.foldl History.add {}

/-- All that the clock shows during some requests. -/
def readings (requests : List Request) : List Millis := requests.flatMap Request.readings

/-- The clock is never set back. -/
def InOrder (requests : List Request) : Prop := (readings requests).Pairwise (· ≤ ·)

instance (requests : List Request) : Decidable (InOrder requests) :=
  inferInstanceAs (Decidable (List.Pairwise _ _))

/-- The last arrivals that count at `now`: no more than are kept, and none that is too old. -/
def History.countedArrivals (h : History) (now : Millis) : List Millis :=
  (h.arrivals.rtake arrivalCapacity).filter fun t => now - t ≤ arrivalWindow

/-- The images that count at `now`. -/
def History.countedImages (h : History) (now : Millis) : List SentSample :=
  h.sent.filter fun s => now - s.completed < sentWindow

/-- At `now` the regulator has all of the history that still counts or will count. -/
structure Remembers (r : Regulator) (h : History) (now : Millis) : Prop where
  arrivals : Trimmed (fun t => now - t > arrivalWindow) (h.arrivals.rtake arrivalCapacity) r.arrivals
  sent : Trimmed (fun s => now - s.completed ≥ sentWindow) h.sent r.sent
  arrivalsOrdered : (h.arrivals ++ [now]).Pairwise (· ≤ ·)
  sentOrdered : (h.sent.map (·.completed) ++ [now]).Pairwise (· ≤ ·)

variable {r r' : Regulator} {h : History} {now time : Millis}

theorem fresh_remembers (now : Millis) : Remembers {} {} now where
  arrivals := .refl _ _
  sent := .refl _ _
  arrivalsOrdered := List.pairwise_singleton _ _
  sentOrdered := List.pairwise_singleton _ _

theorem pairwise_concat_iff {l : List Millis} :
    (l ++ [now]).Pairwise (· ≤ ·) ↔ l.Pairwise (· ≤ ·) ∧ ∀ t ∈ l, t ≤ now := by
  simp [List.pairwise_append]

theorem pairwise_concat_le {l : List Millis} (hl : (l ++ [now]).Pairwise (· ≤ ·))
    (hle : now ≤ time) : (l ++ [time]).Pairwise (· ≤ ·) := by
  rw [pairwise_concat_iff] at hl ⊢
  exact ⟨hl.1, fun t ht => Int.le_trans (hl.2 t ht) hle⟩

theorem pairwise_concat_self {l : List Millis} (hl : (l ++ [now]).Pairwise (· ≤ ·)) :
    (l ++ [now] ++ [now]).Pairwise (· ≤ ·) := by
  rw [pairwise_concat_iff] at hl ⊢
  refine ⟨pairwise_concat_iff.mpr hl, ?_⟩
  intro t ht
  rcases List.mem_append.mp ht with hbefore | hlast
  · exact hl.2 t hbefore
  · exact Int.le_of_eq (List.mem_singleton.mp hlast)

theorem pairwise_three {arrived : Millis} (h : [now, arrived, time].Pairwise (· ≤ ·)) :
    now ≤ arrived ∧ arrived ≤ time :=
  ⟨(List.pairwise_cons.mp h).1 arrived (List.mem_cons_self ..),
    List.pairwise_pair.mp (List.pairwise_cons.mp h).2⟩

theorem Remembers.later (hr : r.Remembers h now) (hle : now ≤ time) : r.Remembers h time where
  arrivals := hr.arrivals.mono fun t ht => by
    rw [decide_eq_true_eq] at ht ⊢
    exact Int.lt_of_lt_of_le ht (Int.sub_le_sub_right hle t)
  sent := hr.sent.mono fun s hs => by
    rw [decide_eq_true_eq] at hs ⊢
    exact Int.le_trans hs (Int.sub_le_sub_right hle s.completed)
  arrivalsOrdered := pairwise_concat_le hr.arrivalsOrdered hle
  sentOrdered := pairwise_concat_le hr.sentOrdered hle

/-- What is done to anything but the two lists makes no difference. -/
theorem Remembers.of_eq (hr : r.Remembers h now) (harrivals : r'.arrivals = r.arrivals)
    (hsent : r'.sent = r.sent) : r'.Remembers h now where
  arrivals := harrivals ▸ hr.arrivals
  sent := hsent ▸ hr.sent
  arrivalsOrdered := hr.arrivalsOrdered
  sentOrdered := hr.sentOrdered

theorem Remembers.frameRate (hr : r.Remembers h now) : (r.frameRate now).1.Remembers h now where
  arrivals := hr.arrivals.dropWhile
  sent := hr.sent
  arrivalsOrdered := hr.arrivalsOrdered
  sentOrdered := hr.sentOrdered

theorem Remembers.lookBack (hr : r.Remembers h now) :
    Remembers { r with sent := recentSamples now r.sent } h now where
  arrivals := hr.arrivals
  sent := hr.sent.dropWhile
  arrivalsOrdered := hr.arrivalsOrdered
  sentOrdered := hr.sentOrdered

theorem Remembers.arrive (hr : r.Remembers h now) :
    (r.arrive now).Remembers { h with arrivals := h.arrivals ++ [now] } now where
  arrivals := hr.arrivals.concat_capped (by decide) now
  sent := hr.sent
  arrivalsOrdered := pairwise_concat_self hr.arrivalsOrdered
  sentOrdered := hr.sentOrdered

theorem Remembers.account (hr : r.Remembers h now) (size : Nat) (timestamp : UInt32) :
    (r.account now size timestamp).Remembers
      { h with sent := h.sent ++ [⟨size, timestamp, now⟩] } now where
  arrivals := hr.arrivals
  sent := hr.lookBack.sent.concat _
  arrivalsOrdered := hr.arrivalsOrdered
  sentOrdered := by
    rw [List.map_append]
    exact pairwise_concat_self hr.sentOrdered

/-- The time it is after a request. -/
def Request.after (now : Millis) (request : Request) : Millis := request.readings.getLastD now

theorem Remembers.perform (hr : r.Remembers h now) {request : Request}
    (horder : (now :: request.readings).Pairwise (· ≤ ·)) :
    (r.perform request).1.Remembers (h.add request) (request.after now) := by
  cases request with
  | reset => exact (fresh_remembers now).of_eq rfl rfl
  | configure limits => exact (fresh_remembers now).of_eq rfl rfl
  | feed bitrate lossRate roundTrip => exact hr.of_eq rfl rfl
  | enableDropping on => exact hr.of_eq rfl rfl
  | frameRate time =>
      have hle : now ≤ time := List.pairwise_pair.mp horder
      exact (hr.later hle).frameRate
  | sentBitrate time =>
      have hle : now ≤ time := List.pairwise_pair.mp horder
      exact (hr.later hle).lookBack
  | sentFrameRate time =>
      have hle : now ≤ time := List.pairwise_pair.mp horder
      exact (hr.later hle).lookBack
  | account time size timestamp =>
      have hle : now ≤ time := List.pairwise_pair.mp horder
      exact (hr.later hle).account size timestamp
  | dropFrame arrived time =>
      obtain ⟨hbefore, hle⟩ := pairwise_three horder
      exact (((hr.later hbefore).arrive.later hle).frameRate).of_eq rfl rfl

theorem dropWhile_congr {α : Type} {p q : α → Bool} {l : List α} (h : ∀ a ∈ l, p a = q a) :
    l.dropWhile p = l.dropWhile q := by
  induction l with
  | nil => rfl
  | cons a rest ih =>
      obtain ⟨ha, hrest⟩ := List.forall_mem_cons.mp h
      rw [List.dropWhile_cons, List.dropWhile_cons, ha, ih hrest]

/-- While the clock shows early times, signed 64-bit arithmetic finds the same
arrivals too old. -/
theorem recentArrivals_eq_wrap {arrivals : List Millis} (hnow : Millis.Early now)
    (hearly : ∀ t ∈ arrivals, Millis.Early t) :
    recentArrivals now arrivals =
      arrivals.dropWhile fun t => Millis.wrap (now - t) > arrivalWindow :=
  dropWhile_congr fun t ht => by rw [hnow.wrap_sub (hearly t ht)]

theorem recentSamples_eq_wrap {samples : List SentSample} (hnow : Millis.Early now)
    (hearly : ∀ s ∈ samples, Millis.Early s.completed) :
    recentSamples now samples =
      samples.dropWhile fun s => Millis.wrap (now - s.completed) ≥ sentWindow :=
  dropWhile_congr fun s hs => by rw [hnow.wrap_sub (hearly s hs)]

theorem Remembers.recentArrivals_eq (hr : r.Remembers h now) :
    recentArrivals now r.arrivals = h.countedArrivals now := by
  have hfirst : StaleFirst (fun t => decide (now - t > arrivalWindow))
      (h.arrivals.rtake arrivalCapacity) := by
    refine (pairwise_concat_iff.mp hr.arrivalsOrdered).1.sublist (List.drop_sublist _ _) |>.imp ?_
    intro t u hle hu
    rw [decide_eq_true_eq] at hu ⊢
    exact Int.lt_of_lt_of_le hu (Int.sub_le_sub_left hle now)
  rw [recentArrivals, hr.arrivals.dropWhile_eq hfirst, History.countedArrivals]
  apply List.filter_congr
  intro t ht
  rw [← decide_not, decide_eq_decide]
  exact Int.not_lt

theorem Remembers.recentSamples_eq (hr : r.Remembers h now) :
    recentSamples now r.sent = h.countedImages now := by
  have hfirst : StaleFirst (fun s : SentSample => decide (now - s.completed ≥ sentWindow))
      h.sent := by
    refine (List.pairwise_map.mp (pairwise_concat_iff.mp hr.sentOrdered).1).imp ?_
    intro s t hle ht
    rw [decide_eq_true_eq] at ht ⊢
    exact Int.le_trans ht (Int.sub_le_sub_left hle now)
  rw [recentSamples, hr.sent.dropWhile_eq hfirst, History.countedImages]
  apply List.filter_congr
  intro s hs
  rw [← decide_not, decide_eq_decide]
  exact Int.not_le

theorem Remembers.frameRate_eq (hr : r.Remembers h now) :
    (r.frameRate now).2 = arrivalRate (h.countedArrivals now) :=
  congrArg arrivalRate hr.recentArrivals_eq

theorem Remembers.sentBitrate_eq (hr : r.Remembers h now) :
    (r.sentBitrate now).2 = bitrateOf (h.countedImages now) :=
  congrArg bitrateOf hr.recentSamples_eq

theorem Remembers.sentFrameRate_eq (hr : r.Remembers h now) :
    (r.sentFrameRate now).2 = frameRateOf (h.countedImages now) :=
  congrArg frameRateOf hr.recentSamples_eq

/-- The estimate by which an incoming frame drains the bucket counts that frame. -/
theorem Remembers.arrive_frameRate_eq {arrived : Millis} (hr : r.Remembers h arrived)
    (hle : arrived ≤ now) :
    ((r.arrive arrived).frameRate now).2 =
      arrivalRate (History.countedArrivals { h with arrivals := h.arrivals ++ [arrived] } now) :=
  (hr.arrive.later hle).frameRate_eq

variable {request : Request} {requests padded : List Request} {l : List Millis}

theorem readings_cons (request : Request) (requests : List Request) :
    readings (request :: requests) = request.readings ++ readings requests :=
  List.flatMap_cons

theorem readings_append (before after : List Request) :
    readings (before ++ after) = readings before ++ readings after :=
  List.flatMap_append

theorem pairwise_readings_cons
    (horder : (now :: (readings (request :: requests) ++ l)).Pairwise (· ≤ ·)) :
    (now :: request.readings).Pairwise (· ≤ ·) ∧
      (request.after now :: (readings requests ++ l)).Pairwise (· ≤ ·) := by
  rw [readings_cons, List.append_assoc, ← List.cons_append, List.pairwise_append] at horder
  obtain ⟨hfirst, hrest, hbetween⟩ := horder
  refine ⟨hfirst, List.pairwise_cons.mpr ⟨?_, hrest⟩⟩
  intro t ht
  exact hbetween _ List.getLastD_mem_cons t ht

theorem run_remembers (hr : r.Remembers h now)
    (horder : (now :: (readings requests ++ l)).Pairwise (· ≤ ·)) :
    ∃ time, (r.run requests).Remembers (requests.foldl History.add h) time ∧
      (time :: l).Pairwise (· ≤ ·) := by
  induction requests generalizing r h now with
  | nil => exact ⟨now, hr, horder⟩
  | cons request rest ih =>
      obtain ⟨hfirst, hrest⟩ := pairwise_readings_cons horder
      exact ih (hr.perform hfirst) hrest

theorem exists_earlier (hl : l.Pairwise (· ≤ ·)) : ∃ now, (now :: l).Pairwise (· ≤ ·) := by
  cases l with
  | nil => exact ⟨0, List.pairwise_singleton _ _⟩
  | cons t rest =>
      refine ⟨t, List.pairwise_cons.mpr ⟨?_, hl⟩⟩
      intro u hu
      rcases List.mem_cons.mp hu with rfl | hrest
      · exact Int.le_refl _
      · exact (List.pairwise_cons.mp hl).1 u hrest

/-- After any requests a new regulator remembers their history. -/
theorem remembers_of_inOrder (horder : InOrder (requests ++ [request])) :
    ∃ time, (run {} requests).Remembers (history requests) time ∧
      (time :: request.readings).Pairwise (· ≤ ·) := by
  rw [InOrder, readings_append] at horder
  obtain ⟨now, hnow⟩ := exists_earlier horder
  obtain ⟨time, hremembers, htime⟩ := run_remembers (fresh_remembers now) hnow
  exact ⟨time, hremembers, by simpa [readings] using htime⟩

/-- `padded` is `requests` with queries put in between. -/
inductive Padded : List Request → List Request → Prop where
  | nil : Padded [] []
  | cons (request : Request) {requests padded : List Request} (rest : Padded requests padded) :
      Padded (request :: requests) (request :: padded)
  | query {request : Request} {requests padded : List Request} (query : request.isQuery = true)
      (rest : Padded requests padded) : Padded requests (request :: padded)

/-- Two regulators differ at most in which of the entries that no longer count
they still have. -/
structure Alike (r r' : Regulator) (h : History) (now : Millis) : Prop where
  left : r.Remembers h now
  right : r'.Remembers h now
  same : ∃ arrivals sent, r' = { r with arrivals := arrivals, sent := sent }

theorem Alike.perform (ha : Alike r r' h now)
    (horder : (now :: request.readings).Pairwise (· ≤ ·)) :
    (r'.perform request).2 = (r.perform request).2 ∧
      Alike (r.perform request).1 (r'.perform request).1 (h.add request) (request.after now) := by
  have hleft := ha.left.perform horder
  have hright := ha.right.perform horder
  obtain ⟨arrivals, sent, rfl⟩ := ha.same
  cases request with
  | reset => exact ⟨rfl, hleft, hright, [], [], rfl⟩
  | configure limits => exact ⟨rfl, hleft, hright, [], [], rfl⟩
  | feed bitrate lossRate roundTrip => exact ⟨rfl, hleft, hright, arrivals, sent, rfl⟩
  | enableDropping on => exact ⟨rfl, hleft, hright, arrivals, sent, rfl⟩
  | account time size timestamp => exact ⟨rfl, hleft, hright, arrivals, _, rfl⟩
  | frameRate time =>
      have hle : now ≤ time := List.pairwise_pair.mp horder
      have hrate := (ha.right.later hle).frameRate_eq.trans (ha.left.later hle).frameRate_eq.symm
      exact ⟨congrArg Answer.rate hrate, hleft, hright, _, sent, rfl⟩
  | sentBitrate time =>
      have hle : now ≤ time := List.pairwise_pair.mp horder
      have hrate :=
        (ha.right.later hle).sentBitrate_eq.trans (ha.left.later hle).sentBitrate_eq.symm
      exact ⟨congrArg Answer.rate hrate, hleft, hright, arrivals, _, rfl⟩
  | sentFrameRate time =>
      have hle : now ≤ time := List.pairwise_pair.mp horder
      have hrate :=
        (ha.right.later hle).sentFrameRate_eq.trans (ha.left.later hle).sentFrameRate_eq.symm
      exact ⟨congrArg Answer.rate hrate, hleft, hright, arrivals, _, rfl⟩
  | dropFrame arrived time =>
      obtain ⟨hbefore, hle⟩ := pairwise_three horder
      -- Both estimates are that of the history, so both buckets lose the same.
      have hrate := ((ha.right.later hbefore).arrive_frameRate_eq hle).trans
        ((ha.left.later hbefore).arrive_frameRate_eq hle).symm
      have hbucket := congrArg r.bucket.leak hrate
      let other : Regulator := { r with arrivals := arrivals, sent := sent }
      let kept := ((other.arrive arrived).frameRate time).1.arrivals
      refine ⟨congrArg (fun bucket : LeakyBucket => Answer.dropped bucket.overfull) hbucket,
        hleft, hright, kept, sent, ?_⟩
      exact congrArg (fun bucket : LeakyBucket =>
        ({ r with bucket := bucket, arrivals := kept, sent := sent } : Regulator)) hbucket

theorem add_of_isQuery (hquery : request.isQuery = true) : h.add request = h := by
  cases request <;> first | rfl | cases hquery

theorem Alike.query (ha : Alike r r' h now) (hquery : request.isQuery = true)
    (horder : (now :: request.readings).Pairwise (· ≤ ·)) :
    Alike r (r'.perform request).1 h (request.after now) := by
  have hright := ha.right.perform horder
  rw [add_of_isQuery hquery] at hright
  obtain ⟨arrivals, sent, rfl⟩ := ha.same
  have hle : now ≤ request.after now := by
    rcases List.mem_cons.mp (List.getLastD_mem_cons (l := request.readings) (a := now)) with
      heq | hmem
    · exact Int.le_of_eq heq.symm
    · exact (List.pairwise_cons.mp horder).1 _ hmem
  refine ⟨ha.left.later hle, hright, ?_⟩
  cases request with
  | frameRate time => exact ⟨_, sent, rfl⟩
  | sentBitrate time => exact ⟨arrivals, _, rfl⟩
  | sentFrameRate time => exact ⟨arrivals, _, rfl⟩
  | _ => cases hquery

theorem Padded.alike (hpadded : Padded requests padded) (ha : Alike r r' h now)
    (horder : (now :: (readings padded ++ l)).Pairwise (· ≤ ·)) :
    ∃ time, Alike (r.run requests) (r'.run padded) (requests.foldl History.add h) time ∧
      (time :: l).Pairwise (· ≤ ·) := by
  induction hpadded generalizing r r' h now with
  | nil => exact ⟨now, ha, horder⟩
  | cons request rest ih =>
      obtain ⟨hfirst, hrest⟩ := pairwise_readings_cons horder
      exact ih (ha.perform hfirst).2 hrest
  | query query rest ih =>
      obtain ⟨hfirst, hrest⟩ := pairwise_readings_cons horder
      exact ih (ha.query query hfirst) hrest

/-- The settings after a request go by the request, and by the settings and limits
before. -/
theorem perform_settings (hsettings : r'.settings = r.settings) (hlimits : r'.limits = r.limits)
    (request : Request) :
    (r'.perform request).1.settings = (r.perform request).1.settings ∧
      (r'.perform request).1.limits = (r.perform request).1.limits := by
  obtain ⟨htarget, hloss, htrip, hdropping⟩ := Settings.mk.inj hsettings
  cases request with
  | reset => exact ⟨congrArg (Settings.mk 0 0 0) hdropping, hlimits⟩
  | configure limits => exact ⟨congrArg (Settings.mk limits.startBitrate 0 0) hdropping, rfl⟩
  | feed bitrate lossRate roundTrip =>
      have hallowed : r'.allowed bitrate = r.allowed bitrate := by
        rw [allowed, hlimits, allowed]
      exact ⟨congrArg₂ (Settings.mk · lossRate roundTrip ·) hallowed hdropping, hlimits⟩
  | dropFrame arrived now =>
      refine ⟨?_, hlimits⟩
      simp only [perform, Regulator.dropFrame, Regulator.frameRate, arrive, settings,
        LeakyBucket.leak_enabled, htarget, hloss, htrip, hdropping]
  | enableDropping on => exact ⟨congrArg (fun s : Settings => { s with dropping := on }) hsettings,
      hlimits⟩
  | account now size timestamp =>
      refine ⟨?_, hlimits⟩
      simp only [perform, Regulator.account, settings, LeakyBucket.fill_enabled, htarget, hloss,
        htrip, hdropping]
  | _ => exact ⟨hsettings, hlimits⟩

/-- Queries put in between change nothing that can be read off. -/
theorem Padded.settings_eq (hpadded : Padded requests padded)
    (hsettings : r'.settings = r.settings) (hlimits : r'.limits = r.limits) :
    (r'.run padded).settings = (r.run requests).settings := by
  induction hpadded generalizing r r' with
  | nil => exact hsettings
  | cons request rest ih =>
      obtain ⟨hsame, hkept⟩ := perform_settings hsettings hlimits request
      exact ih hsame hkept
  | @query request _ _ query rest ih =>
      cases request with
      | frameRate now => exact ih hsettings hlimits
      | sentBitrate now => exact ih hsettings hlimits
      | sentFrameRate now => exact ih hsettings hlimits
      | _ => cases query

/-- Queries put in between change no later answer. -/
theorem Padded.answer_eq (hpadded : Padded requests padded)
    (horder : InOrder (padded ++ [request])) :
    ((run {} padded).perform request).2 = ((run {} requests).perform request).2 := by
  rw [InOrder, readings_append] at horder
  obtain ⟨now, hnow⟩ := exists_earlier horder
  have hstart : Alike {} {} {} now := ⟨fresh_remembers now, fresh_remembers now, [], [], rfl⟩
  obtain ⟨time, halike, htime⟩ := hpadded.alike hstart hnow
  have hreadings : readings [request] = request.readings := by simp [readings]
  exact (halike.perform (hreadings ▸ htime)).1

end Regulator

end Simulcast
