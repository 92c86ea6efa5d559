import Mathlib.Data.List.Basic
import Simulcast.Proofs.Traffic.CallSafety
import Simulcast.Proofs.Traffic.Continuity
import Simulcast.Proofs.Traffic.Origin

/-!
What becomes of a target bitrate of zero. A submission to a frame driven
encoder holds its frame back as long as the plan it works on has no target, and
that plan is never mistaken about the encoder, however old the copy is that
the submission carries. Feedback is not as careful. It looks for an internal
source when it puts its rates into the plan and hands them over later, to
whatever encoder is in the slot then. A frame driven encoder is handed a zero
target exactly if it was registered between these two sections.
-/

namespace Simulcast

namespace Sender

variable {s : Sender}

/-- Rates reach an encoder with a submission, or with feedback. -/
theorem StageCall.configure {stage : EncoderStage} {rates : RateParameters}
    (h : s.StageCall stage (.configure rates)) :
    (∃ frame info copy, stage = .encode frame info copy ∧ ¬ Gated (s.currentPlan copy) ∧
        rates = s.seenRates (s.currentPlan copy).rates) ∨
      ∃ given, stage = .pushRates given ∧ rates = s.seenRates given := by
  cases stage with
  | encode frame info copy =>
      obtain ⟨_, _, hrates, hopen⟩ := h
      exact Or.inl ⟨frame, info, copy, rfl, hopen, hrates⟩
  | pullKey stream =>
      obtain ⟨_, _, _, heq⟩ := h
      exact EncoderCall.noConfusion heq
  | pushRates given => exact Or.inr ⟨given, rfl, EncoderCall.configure.inj h⟩
  | _ => exact h.elim

theorem pushRates_called (s : Sender) {slot : Handle} (hslot : s.slot = some slot)
    (rates : RateParameters) :
    .called slot.encoder (.configure (s.seenRates rates)) ∈
      entriesSince s.rack.journal (s.pushRates rates).1.rack.journal := by
  rw [s.pushRates_fst hslot]
  have hjournal : (s.callEncoder slot.encoder (.configure (s.seenRates rates))).1.rack.journal =
      [.answered slot.encoder (.configure (s.seenRates rates))
        (Rack.fault? (s.rack.call slot.encoder (.configure (s.seenRates rates))).2),
        .called slot.encoder (.configure (s.seenRates rates))] ++ s.rack.journal := rfl
  rw [hjournal, entriesSince_append]
  simp

end Sender

namespace Traffic

/-- A codec is registered that an encoder with an internal source serves. -/
def driving : List Move :=
  [.follow (.act (.call (.attach 96 true (.fresh { internalSource := true })))),
    .follow (.act (Sender.sampleRegistration 1))]

/-- Between `s` and `s'` the encoder in the slot is handed a zero target
although it is driven by frames. -/
def Starves (s s' : Sender) : Prop :=
  ∃ slot rates, s.slot = some slot ∧ slot.internalSource = false ∧
    rates.targetBitrate = 0 ∧
    .called slot.encoder (.configure rates) ∈ entriesSince s.rack.journal s'.rack.journal

/-- The move hands over a zero target that a call of feedback has put into the
plan while that named an internal source. The call has not gone on since, but a
codec was registered meanwhile, and a frame driven encoder serves it. -/
inductive Overtaken (t : Traffic) : List Move → Move → Prop where
  | late {before after : List Move} {n : Nat} {rates : RateParameters} {slot : Handle}
      (fed : (t.run before).calls[n]? = some (.regulated rates))
      (zero : rates.targetBitrate = 0)
      (source : (t.run before).sender.plan.internalSource = true)
      (waits : .proceed n ∉ after)
      (registered : (t.run (before ++ [.proceed n])).accepted after ≠ [])
      (slot_eq : (t.run (before ++ .proceed n :: after)).sender.slot = some slot)
      (driven : slot.internalSource = false) :
      Overtaken t (before ++ .proceed n :: after) (.proceed n)

/-- A submission that goes on works on a plan that is right about the encoder. -/
theorem proceed_currentPlan_source {s : Sender} (hs : s.Fresh) {moves : List Move} {n : Nat}
    {frame : Frame} {info : Option SideInfo} {copy : Plan} {slot : Handle}
    (hleg : (run { sender := s } moves).calls[n]? =
      some (.reached (.waits (.encode frame info copy))))
    (hslot : (run { sender := s } moves).sender.slot = some slot)
    (hrecent : Recent { sender := s } moves (.proceed n)) :
    ((run { sender := s } moves).sender.currentPlan copy).internalSource =
      slot.internalSource := by
  obtain ⟨before, c, after, rfl, hn, rfl⟩ := copy_origin hleg
  have hcoherent : (run { sender := s } before).sender.Coherent := run_coherent hs.coherent before
  have hlength := (run_stamped hs.coherent before).length
  have hstamp : (stamps { sender := s } (before ++ .enter c :: after))[n]? =
      some (registrations (run { sender := s } before).sender.rack.journal) := by
    rw [stamps_append, stamps, hn, ← hlength, List.getElem?_append_right (Nat.le_refl _),
      Nat.sub_self, List.getElem?_cons_zero]
  have hcount := hrecent _ hstamp
  rw [run_append] at hslot hcount ⊢
  exact currentPlan_source hcoherent _ hslot hcount

/-- Only feedback that goes on hands a zero target to a frame driven encoder. -/
theorem Starves.pushRates {s : Sender} (hs : s.Fresh) {moves : List Move} {move : Move}
    {slot : Handle} (hslot : (run { sender := s } moves).sender.slot = some slot)
    (hdriven : slot.internalSource = false)
    (hrecent : Recent { sender := s } moves move)
    (h : Starves (run { sender := s } moves).sender
      ((run { sender := s } moves).step move).sender) :
    ∃ n rates, move = .proceed n ∧ rates.targetBitrate = 0 ∧
      (run { sender := s } moves).calls[n]? = some (.reached (.waits (.pushRates rates))) := by
  have hcoherent : (run { sender := s } moves).sender.Coherent := run_coherent hs.coherent moves
  obtain ⟨_, rates, _, _, hzero, hmem⟩ := h
  obtain ⟨new, hjournal, hcalls⟩ := (step_passage hcoherent move).journal
  rw [hjournal, entriesSince_append] at hmem
  have hcall := hcalls _ _ hmem trivial
  cases move with
  | enter c => exact hcall.elim
  | proceed n =>
      obtain ⟨progress, hleg, stage, rfl, hstage⟩ := hcall
      rcases hstage.configure with ⟨frame, info, copy, rfl, hopen, rfl⟩ | ⟨given, rfl, rfl⟩
      · rw [Sender.seenRates_targetBitrate] at hzero
        have hsource := proceed_currentPlan_source hs hleg hslot hrecent
        exact absurd ⟨hsource.trans hdriven, hzero⟩ hopen
      · rw [Sender.seenRates_targetBitrate] at hzero
        exact ⟨n, given, rfl, hzero, hleg⟩
  | follow i =>
      obtain ⟨a, rfl, c, rfl, stage, hprogress, hstage⟩ := hcall
      obtain ⟨_, hsame, _⟩ := (run { sender := s } moves).sender.begin_slot c
      have hbegun := Sender.begin_coherent hcoherent c
      -- A call made in one piece finds the plan as it should be.
      have hsource := hbegun.source_of_slot (hsame.trans hslot)
      rw [hdriven] at hsource
      rcases hstage.configure with ⟨frame, info, copy, rfl, hopen, rfl⟩ | ⟨given, rfl, rfl⟩
      · rw [Sender.seenRates_targetBitrate] at hzero
        obtain ⟨_, rfl, hsender⟩ := Sender.begin_encode hprogress
        rw [hsender] at hsource hopen hzero
        rw [Sender.currentPlan, if_pos rfl] at hopen hzero
        exact absurd ⟨hsource, hzero⟩ hopen
      · rw [(Sender.begin_pushRates hprogress).2] at hsource
        simp at hsource

/-- Rates that wait for a frame driven encoder were overtaken: they were meant
for an encoder with an internal source, and only a registration puts another
encoder in its place. -/
theorem overtaken_of_pushRates {s : Sender} (hs : s.Fresh) {moves : List Move} {n : Nat}
    {rates : RateParameters} {slot : Handle}
    (hleg : (run { sender := s } moves).calls[n]? = some (.reached (.waits (.pushRates rates))))
    (hzero : rates.targetBitrate = 0)
    (hslot : (run { sender := s } moves).sender.slot = some slot)
    (hdriven : slot.internalSource = false) : Overtaken { sender := s } moves (.proceed n) := by
  obtain ⟨before, after, rfl, hwaits, hfed, hsource⟩ := push_origin hleg
  refine .late hfed hzero hsource hwaits ?_ hslot hdriven
  intro hnone
  have hcoherent : (run { sender := s } (before ++ [.proceed n])).sender.Coherent :=
    run_coherent hs.coherent _
  have hkept : (run { sender := s } (before ++ [.proceed n])).sender.plan.internalSource = true := by
    rw [run_snoc]
    simp only [step, hfed, proceed_regulated _ _ hsource]
    exact hsource
  have hcount := run_registrations hcoherent after
  rw [hnone, List.length_nil, Nat.add_zero] at hcount
  rw [run_step_append, ← run_snoc] at hslot
  rcases run_slot_of_eq hcoherent after hcount with hstays | hvacated
  · have hsame := hcoherent.source_of_slot (hstays.symm.trans hslot)
    rw [hkept, hdriven] at hsame
    simp at hsame
  · rw [hslot] at hvacated
    simp at hvacated

/-- Of all the moves of all calls, a frame driven encoder is handed a zero
target by those alone with which feedback goes on that was overtaken by the
registration of the encoder's codec. -/
theorem zero_rate_iff_overtaken {s : Sender} (hs : s.Fresh) (moves : List Move) (move : Move)
    (hrecent : Recent { sender := s } moves move) :
    Starves (run { sender := s } moves).sender ((run { sender := s } moves).step move).sender ↔
      Overtaken { sender := s } moves move := by
  constructor
  · intro h
    obtain ⟨slot, _, hslot, hdriven, _, _⟩ := id h
    obtain ⟨n, rates, rfl, hzero, hleg⟩ := h.pushRates hs hslot hdriven hrecent
    exact overtaken_of_pushRates hs hleg hzero hslot hdriven
  · rintro (@⟨before, after, n, rates, slot, hfed, hzero, hsource, hwaits, _, hslot, hdriven⟩)
    have hleg : (run { sender := s } (before ++ .proceed n :: after)).calls[n]? =
        some (.reached (.waits (.pushRates rates))) := by
      rw [run_step_append]
      refine run_calls_of_not_mem hwaits ?_
      rw [(Leaves.proceeded hfed).calls, proceed_regulated _ _ hsource]
    refine ⟨slot, (run { sender := s } (before ++ .proceed n :: after)).sender.seenRates rates,
      hslot, hdriven, ?_, ?_⟩
    · rw [Sender.seenRates_targetBitrate, hzero]
    · simp only [step, hleg]
      exact Sender.pushRates_called _ hslot rates

/-- Feedback without a target arrives while an encoder with an internal source
is in the slot, and the rates go into the plan. -/
def starving : List Move :=
  driving ++ [.enter (.feedback ⟨0, 0, 50⟩), .proceed 0]

/-- A codec for another payload type is registered, which a new encoder driven
by frames serves. -/
def takeover : List Move :=
  [.follow (.act (.call (.register { Sender.sampleCodec 1 with payloadType := 97 } 1 1200)))]

/-- The feedback goes on and hands its zero target to the new encoder. -/
theorem zero_rate_handed :
    (run { sender := Sender.sample } (starving ++ takeover)).sender.slot =
        some ⟨1, false, false⟩ ∧
      .called 1 (.configure ⟨0, 0, 50, 30⟩) ∈
        entriesSince (run { sender := Sender.sample } (starving ++ takeover)).sender.rack.journal
          ((run { sender := Sender.sample } (starving ++ takeover)).step
            (.proceed 0)).sender.rack.journal := by
  decide +kernel

/-- The move is one that was overtaken, and so it hands over a zero target. -/
theorem zero_rate_iff_overtaken_takeover :
    Recent { sender := Sender.sample } (starving ++ takeover) (.proceed 0) ∧
      Starves (run { sender := Sender.sample } (starving ++ takeover)).sender
        ((run { sender := Sender.sample } (starving ++ takeover)).step (.proceed 0)).sender := by
  have hrecent : Recent { sender := Sender.sample } (starving ++ takeover) (.proceed 0) := by
    intro stamp hstamp
    have hone : (stamps { sender := Sender.sample } (starving ++ takeover))[0]? = some 1 := by
      decide +kernel
    have htwo : registrations
        (run { sender := Sender.sample } (starving ++ takeover)).sender.rack.journal = 2 := by
      decide +kernel
    rw [hone, Option.some.injEq] at hstamp
    rw [htwo, ← hstamp]
    decide
  have hlate : Overtaken { sender := Sender.sample } (starving ++ takeover) (.proceed 0) := by
    have hfed : (run { sender := Sender.sample }
        (driving ++ [.enter (.feedback ⟨0, 0, 50⟩)])).calls[0]? = some (.regulated ⟨0, 0, 50, 0⟩) := by
      decide +kernel
    have hslot : (run { sender := Sender.sample } (starving ++ takeover)).sender.slot =
        some ⟨1, false, false⟩ := by
      decide +kernel
    exact .late hfed rfl (by decide +kernel) (by decide) (by decide +kernel) hslot rfl
  exact ⟨hrecent, (zero_rate_iff_overtaken Sender.sample_fresh _ _ hrecent).mpr hlate⟩

end Traffic

end Simulcast
