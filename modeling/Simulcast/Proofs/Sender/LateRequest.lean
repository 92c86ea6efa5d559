import Mathlib.Data.List.Basic
import Simulcast.Proofs.Sender.Coherent

/-!
Key frame requests made while an encode call is under way, from inside its
callbacks. Once the call has succeeded, what it carried is compared with what
is wanted then. A request for a stream on which the call carried a delta frame
differs from it and stays. A request for a stream on which the call carried a
key frame is the same as the one being served, so it is settled along with it
and no later frame answers it.
-/

namespace Simulcast

namespace Sender

/-- A request made during an encode call that succeeds is pending afterwards,
and carried by the encode call of the next submission, exactly if the call it
came during did not carry a key frame on its stream. -/
theorem late_request_iff {s : Sender} {frame : Frame} {info : Option SideInfo} {copy : Plan}
    {kinds : List FrameKind} {i : Nat} {reply : Reply}
    (hdone : (s.encode frame info copy).2 = .ok (.encoded kinds))
    (hrequest : .nested (.act (.call (.requestKey i))) reply ∈
      entriesSince s.rack.journal (s.encode frame info copy).1.rack.journal)
    (hi : i < s.plan.schedule.size) :
    (∀ n f carried inf,
        .called n (.encode f carried inf) ∈
          entriesSince s.rack.journal (s.encode frame info copy).1.rack.journal →
        carried = kinds) ∧
      ((s.encode frame info copy).1.plan.schedule.get? i = some .key ↔
        kinds[i]? ≠ some .key) ∧
      ∀ nextFrame nextInfo n f carried inf,
        .called n (.encode f carried inf) ∈
          entriesSince (s.encode frame info copy).1.rack.journal
            ((s.encode frame info copy).1.submit nextFrame nextInfo).1.rack.journal →
        (carried[i]? = some .key ↔ kinds[i]? ≠ some .key) := by
  obtain ⟨mid, new, hmid, hcarried, ⟨_, _, hnot⟩ | ⟨hafter, _, hresult⟩⟩ :=
    s.encode_end frame info copy
  · exact absurd hdone (hnot kinds)
  · have hkinds : kinds = (s.currentPlan copy).schedule.kinds := by
      rw [hdone] at hresult
      simpa using hresult
    have hsince : entriesSince s.rack.journal (s.encode frame info copy).1.rack.journal = new := by
      rw [encode_journal (Or.inr hafter), hmid.journal, entriesSince_append]
    have hschedule : (s.encode frame info copy).1.plan.schedule =
        (s.plan.schedule.heed new).clearSatisfied (s.currentPlan copy).schedule := by
      rw [hafter, ← hmid.schedule]
      rfl
    rw [hsince] at hrequest
    -- Before the comparison the request is in the live schedule, whatever the call carried.
    have hlive : (s.plan.schedule.heed new).get? i = some .key :=
      s.plan.schedule.get?_heed_of_mem new i reply hrequest hi
    have hsettled : (s.encode frame info copy).1.plan.schedule.get? i = some .key ↔
        kinds[i]? ≠ some .key := by
      rw [hschedule, Schedule.get?_clearSatisfied_eq_key_iff _ _ _ (by simp), hkinds]
      exact and_iff_right hlive
    refine ⟨?_, hsettled, ?_⟩
    · intro n f carried inf hmem
      rw [hsince] at hmem
      rw [hcarried n f carried inf hmem, hkinds]
    · intro nextFrame nextInfo n f carried inf hmem
      rw [(s.encode frame info copy).1.encode_plan_kinds nextFrame nextInfo hmem]
      exact hsettled

/-- Two streams. The next frame is to carry a key frame on the second, and
both are asked for while it is encoded. -/
def interrupted : Sender :=
  ((sample.run [sampleRegistration 2, sampleFeedback, .call (.submit sampleFrame none),
      .call (.requestKey 1)]).follow
    (.onEncode 0 [.act (.call (.requestKey 0)), .act (.call (.requestKey 1))])).1

/-- The request for the first stream stays: the call carried a delta frame
there. -/
theorem late_request_iff_interrupted :
    (interrupted.encode sampleFrame none interrupted.plan).2 = .ok (.encoded [.delta, .key]) ∧
      (interrupted.encode sampleFrame none interrupted.plan).1.plan.schedule.get? 0 =
        some .key := by
  have hdone : (interrupted.encode sampleFrame none interrupted.plan).2 =
      .ok (.encoded [.delta, .key]) := by decide +kernel
  have hrequest : .nested (.act (.call (.requestKey 0))) .done ∈
      entriesSince interrupted.rack.journal
        (interrupted.encode sampleFrame none interrupted.plan).1.rack.journal := by
    decide +kernel
  have hi : 0 < interrupted.plan.schedule.size := by decide +kernel
  exact ⟨hdone, (late_request_iff hdone hrequest hi).2.1.mpr (by decide)⟩

/-- The request for the second stream is gone, although it was answered after
the encode call had begun. -/
theorem late_request_lost :
    (interrupted.submit sampleFrame none).2 = .ok (.encoded [.delta, .key]) ∧
      .nested (.act (.call (.requestKey 1))) .done ∈
        entriesSince interrupted.rack.journal
          (interrupted.submit sampleFrame none).1.rack.journal ∧
      (interrupted.submit sampleFrame none).1.plan.schedule.get? 1 = some .delta := by
  decide +kernel

end Sender

end Simulcast
