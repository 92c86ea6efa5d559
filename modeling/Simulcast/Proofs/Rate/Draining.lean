import Simulcast.Proofs.Rate.FrameRate

/-!
How frames that come in drain the bucket. A frame does so by one frame interval
of the target exactly if the estimate that counts it is not zero, and that is so
exactly if the frame before it still counts, which it does for two seconds. If
frames come in less often, the estimate stays unknown, nothing is drained, and
once the bucket is overfull every frame is dropped.
-/

namespace Simulcast

namespace LeakyBucket

/-- What is left of a level after one frame interval of a target, down to none. -/
def drainedLevel (level target : Float) (frameRate : UInt32) : Float :=
  if level - target / frameRate.toFloat > 0 then level - target / frameRate.toFloat else 0

theorem leak_of_ne_zero {b : LeakyBucket} {frameRate : UInt32} (henabled : b.enabled = true)
    (hrate : frameRate ≠ 0) :
    b.leak frameRate = { b with level := drainedLevel b.level b.target frameRate } :=
  if_pos ⟨henabled, hrate⟩

theorem leak_zero (b : LeakyBucket) : b.leak 0 = b := if_neg (by simp)

@[simp]
theorem fill_target (b : LeakyBucket) (size : Nat) : (b.fill size).target = b.target := by
  unfold fill
  split <;> rfl

@[simp]
theorem leak_target (b : LeakyBucket) (frameRate : UInt32) :
    (b.leak frameRate).target = b.target := by
  unfold leak
  split <;> rfl

end LeakyBucket

namespace Regulator

variable {r : Regulator} {h : History} {prev arrived now : Millis}

/-- The bucket is drained at the target bitrate. -/
theorem perform_target (htarget : r.bucket.target = r.targetBitrate.toFloat) (request : Request) :
    (r.perform request).1.bucket.target = (r.perform request).1.targetBitrate.toFloat := by
  cases request with
  | dropFrame arrived now => exact (LeakyBucket.leak_target _ _).trans htarget
  | account now size timestamp => exact (LeakyBucket.fill_target _ _).trans htarget
  | frameRate now => exact htarget
  | sentBitrate now => exact htarget
  | sentFrameRate now => exact htarget
  | enableDropping on => exact htarget
  | reset => rfl
  | configure limits => rfl
  | feed bitrate lossRate roundTrip => rfl

theorem run_append (r : Regulator) (before after : List Request) :
    r.run (before ++ after) = (r.run before).run after :=
  List.foldl_append

theorem history_snoc (requests : List Request) (request : Request) :
    history (requests ++ [request]) = (history requests).add request := by
  rw [history, List.foldl_append]
  rfl

theorem run_target (requests : List Request) :
    (run {} requests).bucket.target = (run {} requests).targetBitrate.toFloat := by
  induction requests using List.reverseRecOn with
  | nil => rfl
  | append_singleton requests request ih =>
      rw [run_append]
      exact perform_target ih request

theorem spanless_iff_same {window : List Millis} :
    Spanless window ↔ ∀ s ∈ window, ∀ t ∈ window, s = t := by
  refine ⟨?_, Or.inr⟩
  rintro (hshort | hsame)
  · match window, hshort with
    | [], _ => simp
    | [a], _ => simp
  · exact hsame

theorem Remembers.estimate_eq_zero_iff (hr : r.Remembers h now) :
    (r.frameRate now).2 = 0 ↔ Spanless (h.countedArrivals now) := by
  obtain ⟨hvalue, hbounds⟩ := hr.estimate
  constructor
  · intro hzero
    rw [hzero] at hvalue
    by_contra hspan
    have hpositive := (hbounds hspan).1
    rw [← hvalue] at hpositive
    exact absurd hpositive (by decide)
  · intro hspan
    rw [windowedRate_of_spanless hspan] at hvalue
    exact UInt32.toNat_inj.mp (Int.ofNat_inj.mp hvalue)

/-- After a frame the arrivals that count do not span any time exactly if the
frame before it no longer counts. -/
theorem spanless_iff_late (hprev : h.arrivals.getLast? = some prev) (hlater : prev < arrived)
    (hordered : (h.arrivals ++ [arrived]).Pairwise (· ≤ ·)) :
    Spanless (History.countedArrivals { h with arrivals := h.arrivals ++ [arrived] } now) ↔
      ¬ now - prev ≤ arrivalWindow := by
  obtain ⟨before, hbefore⟩ := List.getLast?_eq_some_iff.mp hprev
  rw [spanless_iff_same]
  constructor
  · intro hsame hcounts
    have hlast : (h.arrivals ++ [arrived]).rtake arrivalCapacity =
        before.rtake 88 ++ [prev] ++ [arrived] := by
      rw [show arrivalCapacity = 88 + 1 + 1 from rfl, hbefore, List.rtake_concat_succ,
        List.rtake_concat_succ]
    have hprevCounts : prev ∈ History.countedArrivals
        { h with arrivals := h.arrivals ++ [arrived] } now := by
      rw [History.countedArrivals, hlast]
      exact List.mem_filter.mpr ⟨by simp, decide_eq_true hcounts⟩
    have harrivedCounts : arrived ∈ History.countedArrivals
        { h with arrivals := h.arrivals ++ [arrived] } now := by
      have hrecent : now - arrived ≤ arrivalWindow :=
        Int.le_trans (Int.sub_le_sub_left (Int.le_of_lt hlater) now) hcounts
      rw [History.countedArrivals, hlast]
      exact List.mem_filter.mpr ⟨by simp, decide_eq_true hrecent⟩
    exact Int.ne_of_lt hlater (hsame prev hprevCounts arrived harrivedCounts)
  · intro hlate
    -- Whatever came in before is at least as old as the frame before.
    have honly : ∀ t ∈ History.countedArrivals
        { h with arrivals := h.arrivals ++ [arrived] } now, t = arrived := by
      intro t ht
      obtain ⟨hmem, hrecent⟩ := mem_countedArrivals ht
      rcases List.mem_append.mp hmem with hold | hnew
      · have htprev : t ≤ prev :=
          le_last (pairwise_concat_iff.mp hordered).1 hprev t hold
        exact absurd (Int.le_trans (Int.sub_le_sub_left htprev now) hrecent) hlate
      · exact List.mem_singleton.mp hnew
    intro s hs t ht
    rw [honly s hs, honly t ht]

theorem Remembers.arrive_frameRate_ne_zero_iff (hr : r.Remembers h arrived)
    (hprev : h.arrivals.getLast? = some prev) (hlater : prev < arrived) (hle : arrived ≤ now) :
    ((r.arrive arrived).frameRate now).2 ≠ 0 ↔ now - prev ≤ arrivalWindow := by
  rw [ne_eq, (hr.arrive.later hle).estimate_eq_zero_iff,
    spanless_iff_late hprev hlater hr.arrivalsOrdered, not_not]

theorem run_frameRate_ne_zero_iff {requests : List Request}
    (horder : InOrder (requests ++ [.dropFrame arrived now]))
    (hprev : (history requests).arrivals.getLast? = some prev) (hlater : prev < arrived) :
    (((run {} requests).arrive arrived).frameRate now).2 ≠ 0 ↔ now - prev ≤ arrivalWindow := by
  obtain ⟨time, hr, htime⟩ := remembers_of_inOrder horder
  obtain ⟨hbefore, hle⟩ := pairwise_three htime
  exact (hr.later hbefore).arrive_frameRate_ne_zero_iff hprev hlater hle

theorem leak_of_late {requests : List Request}
    (horder : InOrder (requests ++ [.dropFrame arrived now]))
    (hprev : (history requests).arrivals.getLast? = some prev) (hlater : prev < arrived)
    (hlate : ¬ now - prev ≤ arrivalWindow) :
    (run {} requests).bucket.leak (((run {} requests).arrive arrived).frameRate now).2 =
      (run {} requests).bucket := by
  have hzero : (((run {} requests).arrive arrived).frameRate now).2 = 0 := by
    by_contra hne
    exact hlate ((run_frameRate_ne_zero_iff horder hprev hlater).mp hne)
  rw [hzero, LeakyBucket.leak_zero]

/-- A later frame drains the bucket exactly if the frame before it came in at most
two seconds ago. If not, the bucket stays as it is. -/
theorem drains_iff (requests : List Request) (prev arrived now : Millis)
    (horder : InOrder (requests ++ [.dropFrame arrived now]))
    (hprev : (history requests).arrivals.getLast? = some prev) (hlater : prev < arrived)
    (henabled : (run {} requests).bucket.enabled = true) :
    let r := run {} requests
    let rate := ((r.arrive arrived).frameRate now).2
    let after := (r.dropFrame arrived now).1.bucket
    after = r.bucket.leak rate ∧
      (rate ≠ 0 ↔ now - prev ≤ 2000) ∧
      (now - prev ≤ 2000 → after = { r.bucket with
        level := LeakyBucket.drainedLevel r.bucket.level r.targetBitrate.toFloat rate }) ∧
      (¬ now - prev ≤ 2000 → after = r.bucket) := by
  intro r rate after
  have hrate : rate ≠ 0 ↔ now - prev ≤ 2000 :=
    run_frameRate_ne_zero_iff horder hprev hlater
  refine ⟨rfl, hrate, ?_, ?_⟩
  · intro hcounts
    rw [← run_target requests]
    exact LeakyBucket.leak_of_ne_zero henabled (hrate.mpr hcounts)
  · intro hlate
    exact leak_of_late horder hprev hlater hlate

/-- A target of a million bits per second, one frame, and four bits more than the
bucket may hold. -/
def overspent : List Request :=
  [.configure { startBitrate := 1000000 }, .dropFrame 100000 100000, .account 100000 62501 0]

theorem drains_iff_overspent :
    InOrder (overspent ++ [.dropFrame 102000 102000]) ∧
      (history overspent).arrivals.getLast? = some 100000 ∧ (100000 : Millis) < 102000 ∧
      (run {} overspent).bucket.enabled = true ∧
      (((run {} overspent).arrive 102000).frameRate 102000).2 ≠ 0 := by
  have horder : InOrder (overspent ++ [.dropFrame 102000 102000]) := by decide
  have hprev : (history overspent).arrivals.getLast? = some 100000 := rfl
  have hlater : (100000 : Millis) < 102000 := by decide
  have henabled : (run {} overspent).bucket.enabled = true := by decide +kernel
  obtain ⟨-, hrate, -⟩ := drains_iff overspent 100000 102000 102000 horder hprev hlater henabled
  exact ⟨horder, hprev, hlater, henabled, hrate.mpr (by decide)⟩

/-- A frame that comes in a millisecond later is dropped and drains nothing. -/
theorem late_frame_drains_nothing :
    InOrder (overspent ++ [.dropFrame 102001 102001]) ∧
      (history overspent).arrivals.getLast? = some 100000 ∧
      (run {} overspent).bucket.enabled = true ∧ 0 < (run {} overspent).targetBitrate ∧
      (((run {} overspent).arrive 102001).frameRate 102001).2 = 0 ∧
      ((run {} overspent).dropFrame 102001 102001).1.bucket.level =
        (run {} overspent).bucket.level ∧
      ((run {} overspent).dropFrame 102001 102001).2 = true := by
  decide +kernel

/-- Nothing but frames and questions, each frame coming in when the one before it
no longer counts. -/
def Sparse (prev : Millis) : List Request → Prop
  | [] => True
  | .dropFrame arrived now :: rest => arrivalWindow < now - prev ∧ prev < arrived ∧
      Sparse arrived rest
  | request :: rest => request.isQuery = true ∧ Sparse prev rest

theorem perform_query_bucket {request : Request} (hquery : request.isQuery = true) :
    (r.perform request).1.bucket = r.bucket := by
  cases request <;> first | rfl | cases hquery

theorem InOrder.left {before after : List Request} (h : InOrder (before ++ after)) :
    InOrder before := by
  rw [InOrder, readings_append] at h
  exact (List.pairwise_append.mp h).1

theorem Sparse.tail_of_query {request : Request} {rest : List Request}
    (hsparse : Sparse prev (request :: rest)) (hquery : request.isQuery = true) :
    Sparse prev rest := by
  cases request <;> first | exact hsparse.2 | cases hquery

theorem Sparse.exists_frame {request : Request} {rest : List Request}
    (hsparse : Sparse prev (request :: rest)) (hquery : request.isQuery = false) :
    ∃ arrived now, request = .dropFrame arrived now := by
  cases request with
  | dropFrame arrived now => exact ⟨arrived, now, rfl⟩
  | _ => simp [Sparse, hquery] at hsparse

theorem Sparse.step {requests rest : List Request} {request : Request}
    (hsparse : Sparse prev (request :: rest)) (horder : InOrder (requests ++ [request]))
    (hprev : (history requests).arrivals.getLast? = some prev) :
    ∃ last, (history (requests ++ [request])).arrivals.getLast? = some last ∧
      Sparse last rest ∧
      (run {} (requests ++ [request])).bucket = (run {} requests).bucket ∧
      ∀ arrived now, request = .dropFrame arrived now →
        ((run {} requests).perform request).2 = .dropped (run {} requests).bucket.overfull := by
  have hrun : run {} (requests ++ [request]) = ((run {} requests).perform request).1 :=
    run_append {} requests [request]
  rw [hrun, history_snoc]
  cases hquery : request.isQuery with
  | true =>
      rw [add_of_isQuery hquery]
      refine ⟨prev, hprev, hsparse.tail_of_query hquery, perform_query_bucket hquery, ?_⟩
      rintro arrived now rfl
      cases hquery
  | false =>
      obtain ⟨arrived, now, rfl⟩ := hsparse.exists_frame hquery
      obtain ⟨hlate, hlater, hrest⟩ := hsparse
      have hsame := leak_of_late horder hprev hlater (Int.not_le.mpr hlate)
      refine ⟨arrived, List.getLast?_concat, hrest, hsame, ?_⟩
      intro _ _ _
      exact congrArg (fun bucket : LeakyBucket => Answer.dropped bucket.overfull) hsame

/-- Once the bucket is overfull, frames that come in so seldom are all dropped,
and it stays as it is. -/
theorem sparse_frames_dropped {requests later : List Request}
    (horder : InOrder (requests ++ later))
    (hprev : (history requests).arrivals.getLast? = some prev) (hsparse : Sparse prev later)
    (hfull : (run {} requests).bucket.overfull = true) :
    (run {} (requests ++ later)).bucket = (run {} requests).bucket ∧
      ∀ before arrived now after, later = before ++ .dropFrame arrived now :: after →
        ((run {} (requests ++ before)).perform (.dropFrame arrived now)).2 = .dropped true := by
  induction later generalizing requests prev with
  | nil => simp
  | cons request rest ih =>
      rw [List.append_cons] at horder ⊢
      obtain ⟨last, hlast, hrest, hbucket, hdropped⟩ := hsparse.step horder.left hprev
      obtain ⟨hsame, hall⟩ := ih horder hlast hrest (hbucket ▸ hfull)
      refine ⟨hsame.trans hbucket, ?_⟩
      intro before arrived now after heq
      cases before with
      | nil =>
          obtain ⟨rfl, rfl⟩ := List.cons.inj heq
          rw [List.append_nil, hdropped arrived now rfl, hfull]
      | cons first others =>
          obtain ⟨rfl, rfl⟩ := List.cons.inj heq
          rw [List.append_cons]
          exact hall others arrived now after rfl

end Regulator

end Simulcast
