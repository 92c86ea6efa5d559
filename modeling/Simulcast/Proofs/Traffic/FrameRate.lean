import Mathlib.Data.List.Basic
import Simulcast.Proofs.Sender.Rates
import Simulcast.Proofs.Traffic.Faring
import Simulcast.Proofs.Traffic.ZeroRate

/-!
The frame rate that encoders are told. Rate control answers zero while it has
no estimate, and the plan keeps that answer as it is. An encoder never gets to
see it: the maximum of a codec stands in. The codec the sender remembers for
that is written at another moment than the slot and is never forgotten, and yet
whichever section hands rates over, and whatever was registered, refused or
detached since they were asked for, it is the codec that the encoder which is
called was last initialised for.
-/

namespace Simulcast

/-- The estimate of the frame rate that an entry says rate control gave. -/
def Event.estimate? : Event → Option UInt32
  | .rate (.frameRate answer) => some answer
  | _ => none

/-- The estimate given last. -/
def lastEstimate? (journal : List Event) : Option UInt32 := journal.findSome? Event.estimate?

/-- Rates as an encoder that runs `codec` is to get them: the maximum of the
codec stands in for an estimate of zero. -/
def RateParameters.shownFor (rates : RateParameters) (codec : Codec) : RateParameters :=
  if rates.frameRate = 0 then { rates with frameRate := codec.maxFrameRate } else rates

/-- Only estimates change the frame rate. -/
theorem RateParameters.heed_frameRate (rates : RateParameters) (entries : List Event) :
    (rates.heed entries).frameRate = (lastEstimate? entries).getD rates.frameRate := by
  induction entries with
  | nil => rfl
  | cons e rest ih =>
      cases e with
      | rate c => cases c <;> first | rfl | exact ih
      | _ => exact ih

/-- An accepted codec gives every estimate a rate of at least one. -/
theorem RateParameters.shownFor_pos (rates : RateParameters) {codec : Codec}
    (h : codec.fault? = none) : 0 < (rates.shownFor codec).frameRate := by
  have hcodec : codec.maxFrameRate ≠ 0 := by
    intro hzero
    simp only [Codec.fault?, hzero] at h
    split at h <;> simp at h
  have hpos : ∀ n : UInt32, n ≠ 0 → 0 < n := by
    intro n hn
    rw [UInt32.lt_iff_toNat_lt]
    rw [ne_eq, ← UInt32.toNat_inj] at hn
    exact Nat.pos_of_ne_zero hn
  unfold RateParameters.shownFor
  split
  · exact hpos _ hcodec
  · exact hpos _ ‹_›

namespace Sender

variable {C : EncoderCall → Prop} {s s' : Sender}

theorem Refreshes.frameRate (h : s.Refreshes s') :
    s'.plan.rates.frameRate =
      (lastEstimate? (entriesSince s.rack.journal s'.rack.journal)).getD
        s.plan.rates.frameRate := by
  obtain ⟨new, hjournal, hstored⟩ := h
  rw [hjournal, entriesSince_append, hstored, RateParameters.heed_frameRate]

/-- A call on an encoder in use is made before anything is registered or given
up, and on the encoder in the slot. -/
theorem Passage.in_use (h : Passage C s s') :
    ∃ new, s'.rack.journal = new ++ s.rack.journal ∧
      ∀ later n c earlier, new = later ++ .called n c :: earlier → c.Uses →
        C c ∧ s.slot.map Handle.encoder = some n ∧ ∀ e ∈ earlier, e.Routine := by
  have hstretch : ∀ {s s' : Sender} {new : List Event},
      Stretch (Event.Using s.slot C) s s' new →
      ∀ later n c earlier, new = later ++ .called n c :: earlier → c.Uses →
        C c ∧ s.slot.map Handle.encoder = some n ∧ ∀ e ∈ earlier, e.Routine := by
    rintro s s' _ h later n c earlier rfl _
    obtain ⟨_, hc, hn⟩ := h.entries (.called n c) (by simp)
    exact ⟨hc, hn, fun e he => (h.entries e (by simp [he])).routine⟩
  induction h with
  | stretch h => exact ⟨_, h.journal, hstretch h⟩
  | settled h _ _ => exact ⟨_, h.journal, hstretch h⟩
  | served h _ _ _ => exact ⟨_, h.journal, hstretch h⟩
  | registered h _ =>
      obtain ⟨new, hjournal, _, hnew⟩ := h.journal
      refine ⟨new, hjournal, ?_⟩
      rintro later n c earlier rfl huses
      rcases hnew (.called n c) (by simp) with hsetup | heq
      · exact absurd huses hsetup
      · simp at heq
  | unregistered h _ =>
      obtain ⟨new, hjournal, hnew⟩ := h.journal
      refine ⟨new, hjournal, ?_⟩
      rintro later n c earlier rfl huses
      exact absurd huses (hnew (.called n c) (by simp))
  | @after _ _ _ first h _ ih =>
      obtain ⟨new, hjournal, hin⟩ := ih
      refine ⟨new ++ first, by rw [hjournal, h.journal, List.append_assoc], ?_⟩
      intro later n c earlier heq huses
      obtain ⟨others, hnew, rfl⟩ := split_of_beside h.entries heq
      obtain ⟨hc, hn, hothers⟩ := hin later n c others hnew huses
      rw [h.slot] at hn
      refine ⟨hc, hn, fun e he => ?_⟩
      exact (List.mem_append.mp he).elim (hothers e) fun he => (h.entries e he).routine
  | marked _ _ ih => exact ih

/-- The rates that a stage may hand over. -/
def stageRates? (s : Sender) : EncoderStage → Option RateParameters
  | .encode _ _ copy => some (s.currentPlan copy).rates
  | .pushRates rates => some rates
  | _ => none

/-- Rates that an encoder is handed on the way to `s'` are those in `used`, as
they are shown for the codec that the encoder was last initialised for by then.
Their frame rate is known. -/
def TellsKnown (s s' : Sender) (used : Option RateParameters) : Prop :=
  ∃ new, s'.rack.journal = new ++ s.rack.journal ∧
    ∀ later n given earlier, new = later ++ .called n (.configure given) :: earlier →
      0 < given.frameRate ∧
        ∃ rates codec, used = some rates ∧
          initialised? n (earlier ++ s.rack.journal) = some codec ∧
          given = rates.shownFor codec

/-- The codec that the sender remembers is as good as the one the encoder runs,
although the registry cuts its start bitrate. -/
theorem seenRates_eq_shownFor {codec : Codec} (hcodec : s.codec = some codec)
    (rates : RateParameters) : s.seenRates rates = rates.shownFor codec.clamped := by
  simp [seenRates, RateParameters.shownFor, hcodec, Codec.clamped]

theorem StageCall.used {stage : EncoderStage} {given : RateParameters}
    (h : s.StageCall stage (.configure given)) :
    ∃ rates, s.stageRates? stage = some rates ∧ given = s.seenRates rates := by
  rcases h.configure with ⟨frame, info, copy, rfl, _, hgiven⟩ | ⟨rates, rfl, hgiven⟩
  · exact ⟨_, rfl, hgiven⟩
  · exact ⟨rates, rfl, hgiven⟩

theorem Passage.tellsKnown {used : Option RateParameters} (h : Passage C s s')
    (hs : s.Coherent)
    (hC : ∀ given, C (.configure given) →
      ∃ rates, used = some rates ∧ given = s.seenRates rates) :
    s.TellsKnown s' used := by
  obtain ⟨new, hjournal, hin⟩ := h.in_use
  refine ⟨new, hjournal, fun later n given earlier heq => ?_⟩
  obtain ⟨hcall, hn, hearlier⟩ := hin later n _ earlier heq trivial
  obtain ⟨rates, hused, rfl⟩ := hC given hcall
  obtain ⟨handle, hslot, rfl⟩ := Option.map_eq_some_iff.mp hn
  obtain ⟨codec, hcodec, _, hruns⟩ := hs.runs hslot
  have hfault : codec.clamped.fault? = none := hs.accepted codec hcodec
  rw [seenRates_eq_shownFor hcodec]
  refine ⟨rates.shownFor_pos hfault, rates, codec.clamped, hused, ?_, rfl⟩
  rw [initialised?_of_routine hearlier, hruns.initialised]

end Sender

namespace Traffic

variable {t : Traffic}

/-- The rates that a move may hand to an encoder: those of the plan a submission
works on, or those that feedback has put into the plan. -/
def rates? (t : Traffic) (move : Move) : Option RateParameters :=
  (t.holder? move).bind fun (s, stage) => s.stageRates? stage

theorem step_tellsKnown (ht : t.sender.Coherent) (move : Move) :
    t.sender.TellsKnown (t.step move).sender (t.rates? move) := by
  refine (step_passage ht move).tellsKnown ht ?_
  cases move with
  | enter c => exact fun given hcall => hcall.elim
  | proceed n =>
      rintro given ⟨progress, hleg, stage, rfl, hcall⟩
      have hrates : t.rates? (.proceed n) = t.sender.stageRates? stage := by
        simp [rates?, holder?, hleg]
      rw [hrates]
      exact hcall.used
  | follow i =>
      rintro given ⟨a, rfl, c, rfl, stage, hprogress, hcall⟩
      have hbegun : t.sender.begin c = ((t.sender.begin c).1, .waits stage) :=
        Prod.ext rfl hprogress
      have hrates : t.rates? (.follow (.act (.call c))) =
          (t.sender.begin c).1.stageRates? stage := by
        rw [rates?, holder?, hbegun]
        rfl
      obtain ⟨rates, hused, hgiven⟩ := hcall.used
      refine ⟨rates, hrates.trans hused, hgiven.trans ?_⟩
      rw [Sender.seenRates, Sender.seenRates, (t.sender.begin_slot c).2.2]

/-- The estimate that a move puts into the plan. Feedback has asked for its
estimate in an earlier section; everything else asks and stores in one. -/
def estimate? (t : Traffic) (move : Move) : Option UInt32 :=
  match move with
  | .enter _ => none
  | .proceed n =>
      match t.calls[n]? with
      | some (.regulated rates) => some rates.frameRate
      | _ => lastEstimate? (entriesSince t.sender.rack.journal (t.step move).sender.rack.journal)
  | .follow _ =>
      lastEstimate? (entriesSince t.sender.rack.journal (t.step move).sender.rack.journal)

theorem step_stores (t : Traffic) (move : Move) :
    (t.step move).sender.plan.rates.frameRate =
      (t.estimate? move).getD t.sender.plan.rates.frameRate := by
  cases move with
  | enter c =>
      cases c with
      | requestKey i =>
          show (t.sender.markKey i).1.plan.rates.frameRate = _
          rw [Sender.markKey_fst]
          rfl
      | _ => rfl
  | proceed n =>
      cases hleg : t.calls[n]? with
      | none =>
          simp [estimate?, step, hleg, entriesSince_self, lastEstimate?]
      | some leg =>
          cases leg with
          | regulated rates =>
              simp only [estimate?, step, hleg]
              rfl
          | reached progress =>
              have hsender : (t.step (.proceed n)).sender = (t.sender.finish progress).1 := by
                simp only [step, hleg]
                rfl
              simp only [estimate?, hleg, hsender]
              exact (t.sender.finish_refreshes progress).frameRate
  | follow i => exact (t.sender.follow_refreshes i).frameRate

/-- `rates` are those with which the call numbered `n`, of feedback, came from
rate control, which had answered their frame rate. -/
def Answered (t : Traffic) (moves : List Move) (n : Nat) (rates : RateParameters) : Prop :=
  ∃ before report after, moves = before ++ .enter (.feedback report) :: after ∧
    n = (t.run before).calls.length ∧
    lastEstimate? (entriesSince (t.run before).sender.rack.journal
      (t.run (before ++ [.enter (.feedback report)])).sender.rack.journal) =
        some rates.frameRate

theorem regulated_answered {s : Sender} {moves : List Move} {n : Nat} {rates : RateParameters}
    (h : (run { sender := s } moves).calls[n]? = some (.regulated rates)) :
    Answered { sender := s } moves n rates := by
  obtain ⟨before, move, after, hmoves, hleaves, _⟩ := exists_leaves rfl moves h
  generalize hleg : Leg.regulated rates = leg at hleaves
  cases hleaves with
  | entered c last =>
      rcases enter_cases (run { sender := s } before).sender c with ⟨report, rfl, heq⟩ | heq
      · rw [heq] at hleg
        obtain rfl := Leg.regulated.inj hleg
        refine ⟨before, report, after, hmoves, last, ?_⟩
        rw [run_snoc]
        simp only [step, heq]
        exact congrArg lastEstimate? (entriesSince_append
          [.rate (.frameRate _), .rate (.fed _ _ _ _)] _)
      · rw [heq] at hleg
        simp at hleg
  | @proceeded old _ => cases old <;> simp [Sender.proceed] at hleg

/-- Over any run of any number of threads and whatever rate control answers,
every rate an encoder is handed is at least one. It is the estimate in the rates
the move hands over, or if that is zero the maximum of the very codec that the
encoder which is called was last initialised for. The plan keeps what rate
control estimates as it is, and so does feedback that waits to go on. -/
theorem frame_rates_known {s : Sender} (hs : s.Fresh) (moves : List Move) (move : Move) :
    (run { sender := s } moves).sender.TellsKnown
        ((run { sender := s } moves).step move).sender
        ((run { sender := s } moves).rates? move) ∧
      ((run { sender := s } moves).step move).sender.plan.rates.frameRate =
        ((run { sender := s } moves).estimate? move).getD
          (run { sender := s } moves).sender.plan.rates.frameRate ∧
      ∀ n rates, (run { sender := s } moves).calls[n]? = some (.regulated rates) →
        Answered { sender := s } moves n rates :=
  ⟨step_tellsKnown (run_coherent hs.coherent moves) move,
    step_stores (run { sender := s } moves) move, fun _ _ h => regulated_answered h⟩

/-- A codec with half the frame rate is registered for another payload type,
and a new encoder serves it. -/
def slower : List Move :=
  [.follow (.act (.call (.register
    { Sender.sampleCodec 1 with payloadType := 97, maxFrameRate := 15 } 1 1200)))]

/-- Feedback without an estimate, begun while another codec was registered,
hands over the maximum of the new one. The plan keeps the zero. -/
theorem frame_rates_known_slower :
    Sender.sample.Fresh ∧
      (run { sender := Sender.sample } (starving ++ slower)).sender.TellsKnown
        ((run { sender := Sender.sample } (starving ++ slower)).step (.proceed 0)).sender
        (some ⟨0, 0, 50, 0⟩) ∧
      .called 1 (.configure ⟨0, 0, 50, 15⟩) ∈
        ((run { sender := Sender.sample } (starving ++ slower)).step
          (.proceed 0)).sender.rack.journal ∧
      ((run { sender := Sender.sample } (starving ++ slower)).step
        (.proceed 0)).sender.plan.rates.frameRate = 0 := by
  obtain ⟨htells, hstored, _⟩ :=
    frame_rates_known Sender.sample_fresh (starving ++ slower) (.proceed 0)
  have hrates : (run { sender := Sender.sample } (starving ++ slower)).rates? (.proceed 0) =
      some ⟨0, 0, 50, 0⟩ := by
    decide +kernel
  rw [hrates] at htells
  refine ⟨Sender.sample_fresh, htells, by decide +kernel, hstored.trans ?_⟩
  decide +kernel

end Traffic

end Simulcast
