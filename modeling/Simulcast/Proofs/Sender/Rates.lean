import Mathlib.Data.List.Basic
import Simulcast.Proofs.Journal.Feedback
import Simulcast.Proofs.Sender.Courses
import Simulcast.Proofs.Sender.Passage

/-!
How rates get into the plan. Whatever asks rate control for rates also stores
what it is told, and in the same section, but for feedback among other calls.
So whatever callbacks do on the way, the journal of a section says what has
become of the rates in the plan.
-/

namespace Simulcast

namespace RateParameters

/-- Rates brought up to date with what rate control says in `entries`. -/
def heed (rates : RateParameters) (entries : List Event) : RateParameters :=
  entries.foldr (fun e rates =>
    match e with
    | .rate (.fed _ lossRate roundTrip target) => ⟨target, lossRate, roundTrip, rates.frameRate⟩
    | .rate (.frameRate answer) => { rates with frameRate := answer }
    | _ => rates) rates

theorem heed_append (rates : RateParameters) (new old : List Event) :
    rates.heed (new ++ old) = (rates.heed old).heed new :=
  List.foldr_append

theorem heed_of_calm (rates : RateParameters) {entries : List Event}
    (h : ∀ e ∈ entries, e.Calm) : rates.heed entries = rates := by
  induction entries with
  | nil => rfl
  | cons e rest ih =>
      obtain ⟨hcalm, hrest⟩ := List.forall_mem_cons.mp h
      have hheed : rates.heed (e :: rest) = rates.heed rest := by
        cases e with
        | rate c => cases c <;> first | rfl | exact hcalm.elim
        | _ => rfl
      rw [hheed, ih hrest]

/-- Only reports of the network change what comes from them. -/
theorem heed_reported (rates : RateParameters) (entries : List Event) :
    (rates.heed entries).reported = (lastHeard? entries).getD rates.reported := by
  induction entries with
  | nil => rfl
  | cons e rest ih =>
      cases e with
      | rate c => cases c <;> first | rfl | exact ih
      | _ => exact ih

end RateParameters

namespace Sender

variable {s s' s'' : Sender}

/-- From `s` to `s'` the rates in the plan follow what rate control says. -/
def Refreshes (s s' : Sender) : Prop :=
  ∃ new, s'.rack.journal = new ++ s.rack.journal ∧ s'.plan.rates = s.plan.rates.heed new

theorem Refreshes.refl (s : Sender) : s.Refreshes s := ⟨[], rfl, rfl⟩

theorem Refreshes.trans (h : s.Refreshes s') (h' : s'.Refreshes s'') : s.Refreshes s'' := by
  obtain ⟨first, hfirst, hstored⟩ := h
  obtain ⟨more, hmore, hstored'⟩ := h'
  refine ⟨more ++ first, by rw [hmore, hfirst, List.append_assoc], ?_⟩
  rw [hstored', hstored, RateParameters.heed_append]

/-- Over the entries in between, the network's last report is stored. -/
theorem Refreshes.reported (h : s.Refreshes s') :
    s'.plan.rates.reported =
      (lastHeard? (entriesSince s.rack.journal s'.rack.journal)).getD s.plan.rates.reported := by
  obtain ⟨new, hjournal, hstored⟩ := h
  rw [hjournal, entriesSince_append, hstored, RateParameters.heed_reported]

theorem Calm.refreshes (h : s.Calm s') : s.Refreshes s' := by
  obtain ⟨new, hjournal, hnew⟩ := h.journal
  exact ⟨new, hjournal, by rw [h.rates, RateParameters.heed_of_calm _ hnew]⟩

theorem report_refreshes (s : Sender) : s.Refreshes s.report.1 := by
  unfold report
  split
  · exact ⟨[.statistics _ _, .rate (.sentFrameRate _), .rate (.sentBitrate _)], rfl, rfl⟩
  · exact .refl s

theorem tick_refreshes (s : Sender) : s.Refreshes s.tick.1 := by
  have hreport : s.Refreshes (if s.untilDue = 0 then
      { s with timer := s.timer.restart s.now }.report else (s, none)).1 := by
    split
    · exact report_refreshes { s with timer := s.timer.restart s.now }
    · exact .refl s
  exact hreport.trans ⟨[.rate (.frameRate _)], rfl, rfl⟩

theorem begin_refreshes (s : Sender) (c : Call) : s.Refreshes (s.begin c).1 := by
  cases c with
  | requestKey i =>
      show s.Refreshes (s.markKey i).1
      rw [markKey_fst]
      exact ⟨[], rfl, rfl⟩
  | feedback report => exact ⟨[.rate (.frameRate _), .rate (.fed _ _ _ _)], rfl, rfl⟩
  | _ => exact .refl s

theorem followInside_refreshes (s : Sender) (i : Instruction) :
    s.Refreshes (s.followInside i).1 := by
  cases i with
  | act a =>
      cases a with
      | call c =>
          show s.Refreshes (s.actInside (.call c)).1
          rw [actInside_call_fst]
          exact s.begin_refreshes c
      | tick => exact s.tick_refreshes
      | setFaults n patch =>
          simp only [followInside, actInside]
          split <;> exact ⟨[], rfl, rfl⟩
      | _ => exact ⟨[], rfl, rfl⟩
  | onEncode n instructions =>
      simp only [followInside, setOnEncode]
      split <;> exact ⟨[], rfl, rfl⟩
  | onImage instructions => exact ⟨[], rfl, rfl⟩

theorem Course.refreshes (h : s.Course s') : s.Refreshes s' := by
  induction h with
  | refl => exact .refl s
  | tail _ hturn ih =>
      cases hturn with
      | step _ calm => exact ih.trans calm.refreshes
      | inside i =>
          exact (ih.trans (followInside_refreshes _ i)).trans ⟨[.nested i _], rfl, rfl⟩

theorem finish_refreshes (s : Sender) (progress : Progress) :
    s.Refreshes (s.finish progress).1 := by
  obtain ⟨t, hcourse, hcalm⟩ := s.finish_course progress
  exact hcourse.refreshes.trans hcalm.refreshes

/-- While a call has the encoder only what callbacks do is not calm. -/
theorem Course.calm (h : s.Course s') : ∃ new, s'.rack.journal = new ++ s.rack.journal ∧
    ((∀ e ∈ new, e.isNested = false) → ∀ e ∈ new, e.Calm) := by
  induction h with
  | refl => exact ⟨[], rfl, by simp⟩
  | @tail t _ _ hturn ih =>
      obtain ⟨new, hjournal, hnew⟩ := ih
      cases hturn with
      | step _ calm =>
          obtain ⟨more, hmore, hcalm⟩ := calm.journal
          refine ⟨more ++ new, by rw [hmore, hjournal, List.append_assoc], fun hnested => ?_⟩
          have hold := hnew fun e he => hnested e (List.mem_append_right more he)
          exact List.forall_mem_append.mpr ⟨hcalm, hold⟩
      | inside i =>
          obtain ⟨more, hmore, _⟩ := t.followInside_refreshes i
          refine ⟨.nested i (t.followInside i).2 :: (more ++ new), ?_, fun hnested => ?_⟩
          · simp [followNoted, note, Rack.note, hmore, hjournal]
          · simpa [Event.isNested] using hnested _ List.mem_cons_self

theorem finish_calm (s : Sender) (progress : Progress) :
    ∃ new, (s.finish progress).1.rack.journal = new ++ s.rack.journal ∧
      ((∀ e ∈ new, e.isNested = false) → ∀ e ∈ new, e.Calm) := by
  obtain ⟨t, hcourse, hcalm⟩ := s.finish_course progress
  obtain ⟨new, hjournal, hnew⟩ := hcourse.calm
  obtain ⟨more, hmore, hlast⟩ := hcalm.journal
  refine ⟨more ++ new, by rw [hmore, hjournal, List.append_assoc], fun hnested => ?_⟩
  have hold := hnew fun e he => hnested e (List.mem_append_right more he)
  exact List.forall_mem_append.mpr ⟨hlast, hold⟩

theorem follow_refreshes (s : Sender) (i : Instruction) : s.Refreshes (s.follow i).1 := by
  by_cases hcall : ∃ c, i = .act (.call c)
  · obtain ⟨c, rfl⟩ := hcall
    exact (s.begin_refreshes c).trans (finish_refreshes _ _)
  · have heq : (s.follow i).1 = (s.followInside i).1 := by
      cases i with
      | act a => rw [follow, followInside, s.act_eq_actInside fun c hc => hcall ⟨c, hc ▸ rfl⟩]
      | _ => rfl
    rw [heq]
    exact s.followInside_refreshes i

end Sender

end Simulcast
