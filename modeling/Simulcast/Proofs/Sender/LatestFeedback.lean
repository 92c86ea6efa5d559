import Mathlib.Data.List.Basic
import Simulcast.Proofs.Journal.Feedback
import Simulcast.Proofs.Sender.History
import Simulcast.Proofs.Sender.Rates
import Simulcast.Proofs.Traffic.Copies

/-!
What internal sources know of the network. Such an encoder never sees a frame,
so it has to be told of every report; and it is, by the call that brings the
report, if it is in the slot by then. An encoder that comes into the slot later
is told nothing when it is registered. In a run of calls one after the other,
without callbacks, an internal source in the slot holds the last report exactly
if it was not registered after it, or has been handed it all the same: by a
submission since, or by chance before.
-/

namespace Simulcast

@[simp]
theorem Sender.seenRates_reported (s : Sender) (rates : RateParameters) :
    (s.seenRates rates).reported = rates.reported := by
  unfold seenRates
  split <;> rfl

theorem Event.Calm.isFed {e : Event} (h : e.Calm) : e.isFed = false := by
  cases e with
  | rate c => cases c <;> first | rfl | exact h.elim
  | _ => rfl

namespace Sender

variable {s s' : Sender} {new : List Event} {a : Action}

/-- From `s` to `s'` the network is not heard of, and encoders are handed no
rates but those in the plan. -/
structure Lull (s s' : Sender) (new : List Event) : Prop where
  journal : s'.rack.journal = new ++ s.rack.journal
  unheard : ∀ e ∈ new, e.isFed = false
  rates : s'.plan.rates.reported = s.plan.rates.reported
  handed : ∀ n given, .called n (.configure given) ∈ new →
    given.reported = s.plan.rates.reported

/-- Feedback apart, nothing is written before a call has the encoder. -/
theorem begin_journal (s : Sender) {c : Call} (h : ∀ report, c ≠ .feedback report) :
    (s.begin c).1.rack.journal = s.rack.journal := by
  cases c with
  | requestKey stream =>
      show (s.markKey stream).1.rack.journal = _
      rw [markKey_fst]
      rfl
  | feedback report => exact absurd rfl (h report)
  | _ => rfl

/-- Without callbacks only feedback reports the network. -/
theorem act_unheard (ha : ∀ report, a ≠ .call (.feedback report))
    (hjournal : (s.act a).1.rack.journal = new ++ s.rack.journal)
    (hnested : ∀ e ∈ new, e.isNested = false) : ∀ e ∈ new, e.isFed = false := by
  by_cases hcall : ∃ c, a = .call c
  · obtain ⟨c, rfl⟩ := hcall
    obtain ⟨others, hothers, hcalm⟩ := (s.begin c).1.finish_calm (s.begin c).2
    have hfinish : (s.act (.call c)).1 = ((s.begin c).1.finish (s.begin c).2).1 := rfl
    rw [s.begin_journal fun report hc => ha report (congrArg Action.call hc), ← hfinish,
      hjournal] at hothers
    obtain rfl := List.append_cancel_right hothers
    exact fun e he => (hcalm hnested e he).isFed
  · obtain ⟨others, haside⟩ := s.aside_interval a fun c hc => hcall ⟨c, hc⟩
    rw [← s.act_eq_actInside fun c hc => hcall ⟨c, hc⟩] at haside
    obtain rfl := List.append_cancel_right (hjournal.symm.trans haside.journal)
    exact fun e he => (haside.entries e he).2

/-- Rates are handed over as they are in the plan, but for the frame rate. -/
theorem ActionCall.reported {given : RateParameters} (h : s.ActionCall a (.configure given))
    (ha : ∀ report, a ≠ .call (.feedback report)) :
    given.reported = s.plan.rates.reported := by
  obtain ⟨c, rfl, stage, hprogress, hstage⟩ := h
  cases stage with
  | encode frame info copy =>
      obtain ⟨slot, _, rfl, _⟩ := hstage
      obtain ⟨_, rfl, hsame⟩ := begin_encode hprogress
      rw [seenRates_reported, hsame, currentPlan, if_pos rfl]
  | pullKey stream =>
      obtain ⟨_, _, _, heq⟩ := hstage
      exact EncoderCall.noConfusion heq
  | pushRates rates =>
      cases begin_waits hprogress with
      | feedback report rates _ => exact absurd rfl (ha report)
  | _ => exact hstage.elim

/-- Whatever is done from outside is no report unless it brings one. -/
theorem act_lull (hs : s.Coherent) (hsilent : s.callbacks.Silent)
    (ha : ∀ report, a ≠ .call (.feedback report)) : ∃ new, s.Lull (s.act a).1 new := by
  obtain ⟨new, hjournal, hcalls⟩ := (act_passage hs a).journal
  have hnested := (act_effect hs hsilent a).unnested
  rw [hjournal, entriesSince_append] at hnested
  have hunheard := act_unheard ha hjournal hnested
  have hstored : (s.act a).1.plan.rates.reported =
      (lastHeard? new).getD s.plan.rates.reported := by
    rw [← entriesSince_append new s.rack.journal, ← hjournal]
    exact (s.follow_refreshes (.act a)).reported
  refine ⟨new, hjournal, hunheard, ?_, fun n given hmem => (hcalls n _ hmem trivial).reported ha⟩
  have hnone : lastHeard? new = none := by
    simpa [lastHeard?] using fun e he => Event.heard?_of_not_fed (hunheard e he)
  rw [hstored, hnone, Option.getD_none]

/-- The plan has what the network reported last, and so has every encoder that
was handed rates since. An internal source in the slot was, or was registered
since. -/
structure Informed (s : Sender) : Prop where
  stored : ∀ rates, lastHeard? s.rack.journal = some rates → s.plan.rates.reported = rates
  given : ∀ rates, lastHeard? s.rack.journal = some rates →
    ∀ n given, .called n (.configure given) ∈ sinceReport s.rack.journal → given.reported = rates
  told : ∀ rates, lastHeard? s.rack.journal = some rates →
    ∀ handle, s.slot = some handle → handle.internalSource = true →
      0 < registrations (sinceReport s.rack.journal) ∨
        ∃ given, .called handle.encoder (.configure given) ∈ sinceReport s.rack.journal

theorem Lull.informed (h : s.Lull s' new) (hs : s.Informed)
    (hslot : s'.slot = s.slot ∨ s'.slot = none ∨ 0 < registrations new) : s'.Informed := by
  have hheard : lastHeard? s'.rack.journal = lastHeard? s.rack.journal := by
    rw [h.journal, lastHeard?_append h.unheard]
  have hsince : sinceReport s'.rack.journal = new ++ sinceReport s.rack.journal := by
    rw [h.journal, sinceReport_append h.unheard]
  refine ⟨?_, ?_, ?_⟩
  · intro rates hrates
    rw [h.rates, hs.stored rates (hheard ▸ hrates)]
  · intro rates hrates n given hmem
    rw [hheard] at hrates
    rw [hsince] at hmem
    rcases List.mem_append.mp hmem with hmem | hmem
    · rw [h.handed n given hmem, hs.stored rates hrates]
    · exact hs.given rates hrates n given hmem
  · intro rates hrates handle hhandle hsource
    rw [hheard] at hrates
    rw [hsince, registrations_append]
    rcases hslot with hsame | hnone | hregistered
    · rcases hs.told rates hrates handle (hsame.symm.trans hhandle) hsource with
        hregistered | ⟨given, hmem⟩
      · exact Or.inl (by omega)
      · exact Or.inr ⟨given, List.mem_append_right new hmem⟩
    · rw [hhandle] at hnone
      simp at hnone
    · exact Or.inl (by omega)

/-- The encoder in the slot stays or is given up, unless a codec is
registered. -/
theorem act_slot (hs : s.Coherent) (a : Action)
    (hjournal : (s.act a).1.rack.journal = new ++ s.rack.journal) :
    (s.act a).1.slot = s.slot ∨ (s.act a).1.slot = none ∨ 0 < registrations new := by
  have hcount : registrations (s.act a).1.rack.journal =
      registrations new + registrations s.rack.journal := by
    rw [hjournal, registrations_append]
  by_cases hnone : registrations new = 0
  · rcases ((act_passage hs a).slot_of_eq (by omega)).2 with hsame | hvacated
    · exact Or.inl hsame
    · exact Or.inr (Or.inl hvacated)
  · exact Or.inr (Or.inr (Nat.pos_of_ne_zero hnone))

theorem informed_of_fed {e : Event} {older : List Event} {rates : RateParameters}
    (hjournal : s.rack.journal = new ++ e :: older) (he : e.heard? = some rates)
    (hnew : ∀ e ∈ new, e.isFed = false) (hstored : s.plan.rates.reported = rates)
    (hgiven : ∀ n given, .called n (.configure given) ∈ new → given.reported = rates)
    (htold : ∀ handle, s.slot = some handle → handle.internalSource = true →
      ∃ given, .called handle.encoder (.configure given) ∈ new) : s.Informed := by
  have hfed : e.isFed = true := by
    by_contra hnot
    rw [Event.heard?_of_not_fed (by simpa using hnot)] at he
    simp at he
  have hsince : sinceReport s.rack.journal = new := by rw [hjournal, sinceReport_fed hfed hnew]
  have hheard : lastHeard? s.rack.journal = some rates := by
    rw [hjournal, lastHeard?_append hnew]
    simp [lastHeard?, he]
  refine ⟨?_, ?_, ?_⟩
  · intro others hothers
    rw [hstored, ← Option.some.inj (hheard.symm.trans hothers)]
  · intro others hothers n given hmem
    rw [hsince] at hmem
    rw [hgiven n given hmem, ← Option.some.inj (hheard.symm.trans hothers)]
  · intro others _ handle hhandle hsource
    rw [hsince]
    exact Or.inr (htold handle hhandle hsource)

/-- A report is stored, and an internal source in the slot is told of it. -/
theorem feedback_informed (hs : s.Coherent) (report : Feedback) :
    (s.act (.call (.feedback report))).1.Informed := by
  have hact : (s.act (.call (.feedback report))).1 =
      ((s.begin (.feedback report)).1.finish (s.begin (.feedback report)).2).1 := rfl
  have hheard : (Event.rate (.fed report.bitrate report.lossRate report.roundTrip
      (s.rate.feed report.bitrate report.lossRate report.roundTrip).2)).heard? =
      some (s.begin (.feedback report)).1.plan.rates.reported := rfl
  have hjournal : (s.begin (.feedback report)).1.rack.journal =
      [.rate (.frameRate (s.feedRate report).1.askFrameRate.2)] ++
        .rate (.fed report.bitrate report.lossRate report.roundTrip
          (s.rate.feed report.bitrate report.lossRate report.roundTrip).2) :: s.rack.journal := rfl
  have hslot : (s.begin (.feedback report)).1.slot = s.slot := rfl
  have hrates : (s.begin (.feedback report)).2 = if s.plan.internalSource then
      .waits (.pushRates (s.begin (.feedback report)).1.plan.rates) else .finished .done := rfl
  generalize s.begin (.feedback report) = begun at hact hheard hjournal hslot hrates
  obtain ⟨t, progress⟩ := begun
  dsimp only at hact hheard hjournal hslot hrates
  rw [hact, hrates]
  cases hhandle : s.slot with
  | none =>
      have htold : ∀ u : Sender, u = t → u.Informed := by
        rintro u rfl
        exact informed_of_fed hjournal hheard (by simp [Event.isFed]) rfl (by simp)
          (by simp [hslot, hhandle])
      split
      · exact htold _ (by simp [finish, runStage, pushRates, hslot, hhandle])
      · exact htold _ rfl
  | some handle =>
      have hsource : s.plan.internalSource = handle.internalSource := by
        rw [hs.source, hhandle]
        rfl
      split
      · -- The encoder is handed the very rates that went into the plan.
        have hpushed : (t.finish (.waits (.pushRates t.plan.rates))).1 =
            (t.callEncoder handle.encoder (.configure (t.seenRates t.plan.rates))).1 :=
          t.pushRates_fst (hslot.trans hhandle) t.plan.rates
        have hcall := t.rack.call_journal handle.encoder (.configure (t.seenRates t.plan.rates))
        rw [hpushed]
        rw [hjournal, ← List.cons_append, ← List.cons_append] at hcall
        refine informed_of_fed hcall hheard (by simp [Event.isFed]) rfl ?_ ?_
        · simp +contextual
        · intro other hother _
          have hsame : other = handle := by
            have hkept : (t.callEncoder handle.encoder
                (.configure (t.seenRates t.plan.rates))).1.slot = some handle :=
              hslot.trans hhandle
            exact Option.some.inj (hother.symm.trans hkept)
          exact ⟨t.seenRates t.plan.rates, by simp [hsame]⟩
      · rename_i hdriven
        refine informed_of_fed hjournal hheard (by simp [Event.isFed]) rfl (by simp) ?_
        intro other hother hinternal
        have hsame : other = handle := Option.some.inj (hother.symm.trans (hslot.trans hhandle))
        rw [hsource, ← hsame] at hdriven
        exact absurd hinternal hdriven

theorem act_informed (hs : s.Coherent) (hsilent : s.callbacks.Silent) (h : s.Informed)
    (a : Action) : (s.act a).1.Informed := by
  by_cases hreport : ∃ report, a = .call (.feedback report)
  · obtain ⟨report, rfl⟩ := hreport
    exact feedback_informed hs report
  · obtain ⟨new, hlull⟩ := act_lull hs hsilent fun report ha => hreport ⟨report, ha⟩
    exact hlull.informed h (act_slot hs a hlull.journal)

theorem run_informed (hs : s.Coherent) (hsilent : s.callbacks.Silent) (h : s.Informed)
    (actions : List Action) : (s.run actions).Informed := by
  induction actions generalizing s with
  | nil => exact h
  | cons a rest ih =>
      exact ih (act_coherent hs a) (act_effect hs hsilent a).silent (act_informed hs hsilent h a)

theorem start_informed (o : SenderOptions) (now : Millis) : (start o now).Informed := by
  have hnone : lastHeard? (start o now).rack.journal = none := by
    unfold start
    cases o.dropping <;> rfl
  exact ⟨by simp [hnone], by simp [hnone], by simp [hnone]⟩

theorem start_silent (o : SenderOptions) (now : Millis) : (start o now).callbacks.Silent := by
  unfold start
  cases o.dropping <;> exact ⟨fun _ => rfl, rfl⟩

/-- At every point of a run of calls one after the other, once the network has
been heard of: the plan has the last report, and an internal source in the slot
was handed it last unless it missed it. -/
theorem latest_feedback_held_iff (o : SenderOptions) (now : Millis) (actions : List Action)
    {handle : Handle} {rates : RateParameters}
    (hslot : ((start o now).run actions).slot = some handle)
    (hsource : handle.internalSource = true)
    (hheard : lastHeard? ((start o now).run actions).rack.journal = some rates) :
    ((start o now).run actions).plan.rates.reported = rates ∧
      (lastHanded? handle.encoder ((start o now).run actions).rack.journal = some rates ↔
        ¬ Missed handle.encoder rates ((start o now).run actions).rack.journal) := by
  have hinformed := run_informed (start_fresh o now).coherent (start_silent o now)
    (start_informed o now) actions
  exact ⟨hinformed.stored rates hheard, held_iff_not_missed hheard
    (hinformed.given rates hheard handle.encoder)
    (hinformed.told rates hheard handle hslot hsource)⟩

/-- The network is heard of, and then an encoder with an internal source is
registered. -/
def lateSource : List Action :=
  [.call (.attach 96 true (.fresh { internalSource := true })), sampleFeedback,
    sampleRegistration 1]

/-- The internal source has missed the report. -/
theorem latest_feedback_held_iff_late :
    ∃ handle, (sample.run lateSource).slot = some handle ∧ handle.internalSource = true ∧
      lastHeard? (sample.run lateSource).rack.journal = some ⟨500000, 0, 50, 0⟩ ∧
      Missed handle.encoder ⟨500000, 0, 50, 0⟩ (sample.run lateSource).rack.journal := by
  have hslot : (sample.run lateSource).slot = some ⟨0, true, false⟩ := by decide +kernel
  have hheard : lastHeard? (sample.run lateSource).rack.journal = some ⟨500000, 0, 50, 0⟩ := by
    decide +kernel
  have hiff := (latest_feedback_held_iff _ 0 lateSource hslot rfl hheard).2
  refine ⟨_, hslot, rfl, hheard, ?_⟩
  by_contra hnot
  have hheld : lastHanded? 0 (sample.run lateSource).rack.journal = some ⟨500000, 0, 50, 0⟩ :=
    hiff.mpr hnot
  have hnever : lastHanded? 0 (sample.run lateSource).rack.journal = none := by decide +kernel
  rw [hnever] at hheld
  simp at hheld

/-- Nothing was ever handed to the encoder in the slot, which has an internal
source, although the network has been heard of. -/
theorem internal_source_untold :
    ∃ handle, (sample.run lateSource).slot = some handle ∧ handle.internalSource = true ∧
      (sample.run lateSource).plan.rates = ⟨500000, 0, 50, 0⟩ ∧
      lastHanded? handle.encoder (sample.run lateSource).rack.journal = none ∧
      ((sample.run lateSource).rack.encoder handle.encoder).rates = {} :=
  ⟨⟨0, true, false⟩, by decide +kernel, rfl, by decide +kernel, by decide +kernel,
    by decide +kernel⟩

end Sender

end Simulcast
