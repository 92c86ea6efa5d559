import Mathlib.Data.List.Basic
import Simulcast.Proofs.Sender.Submission
import Simulcast.Proofs.Traffic.Continuity

/-!
Submissions over a whole run. Where nothing is done in callbacks, every
submission that comes to its end has one of six ends, and only submissions
hand frames to encoders or tell them of frames they do not get. So the books
balance at every point of every run, however the sections of calls are
interleaved: the submissions are as many as those that found no encoder, were
turned down or could not be converted, and the calls that the journal shows.
-/

namespace Simulcast

/-- A move that sets nothing to be done in callbacks. -/
def Move.Calm : Move → Prop
  | .follow (.onEncode _ _) | .follow (.onImage _) => False
  | _ => True

namespace Traffic

variable {t : Traffic}

theorem step_silent (ht : t.sender.callbacks.Silent) {move : Move} (hcalm : move.Calm) :
    (t.step move).sender.callbacks.Silent := by
  cases move with
  | enter c =>
      show (t.sender.enter c).1.callbacks.Silent
      rcases enter_cases t.sender c with ⟨report, rfl, heq⟩ | heq
      · rw [heq]
        obtain ⟨new, h⟩ := t.sender.regulate_interval report
        exact (h.silent ht).1
      · rw [heq]
        exact Sender.begin_silent ht c
  | proceed n =>
      cases hleg : t.calls[n]? with
      | none => simpa only [step, hleg] using ht
      | some leg =>
          simp only [step, hleg]
          cases leg with
          | regulated rates => exact ht
          | reached progress => exact Sender.finish_silent ht progress
  | follow i =>
      cases i with
      | act a => exact Sender.act_silent ht a
      | onEncode n instructions => exact hcalm.elim
      | onImage instructions => exact hcalm.elim

theorem run_silent (ht : t.sender.callbacks.Silent) {moves : List Move}
    (hcalm : ∀ move ∈ moves, move.Calm) : (t.run moves).sender.callbacks.Silent := by
  induction moves generalizing t with
  | nil => exact ht
  | cons move rest ih =>
      exact ih (step_silent ht (hcalm move (by simp))) fun m hm => hcalm m (by simp [hm])

/-- The verdict on the submission that a move brings to its end, if it does. -/
def verdict? (t : Traffic) : Move → Option Verdict
  | .enter _ => none
  | .proceed n =>
      match t.calls[n]? with
      | some (.reached (.waits (.encode frame info copy))) =>
          some (t.sender.encode frame info copy).2
      | _ => none
  | .follow i =>
      match i with
      | .act (.call (.submit frame info)) => some (t.sender.submit frame info).2
      | _ => none

/-- The verdicts on the submissions of a run, the latest first. -/
def verdicts (t : Traffic) : List Move → List Verdict
  | [] => []
  | move :: rest => (t.step move).verdicts rest ++ (t.verdict? move).toList

/-- Only submissions pass frames on or say that they do not. -/
theorem StepCall.submits {move : Move} {c : EncoderCall} (h : t.StepCall move c)
    (hc : c = .skip ∨ ∃ f kinds info, c = .encode f kinds info) : t.verdict? move ≠ none := by
  have hstage : ∀ {s : Sender} {stage : EncoderStage}, s.StageCall stage c →
      ∃ frame info copy, stage = .encode frame info copy := by
    intro s stage hstage
    cases stage with
    | encode frame info copy => exact ⟨frame, info, copy, rfl⟩
    | pullKey stream =>
        obtain ⟨_, _, _, heq⟩ := hstage
        rcases hc with rfl | ⟨_, _, _, rfl⟩ <;> simp at heq
    | pushRates rates =>
        have heq : c = .configure (s.seenRates rates) := hstage
        rcases hc with rfl | ⟨_, _, _, rfl⟩ <;> simp at heq
    | _ => exact hstage.elim
  cases move with
  | enter call => exact h.elim
  | proceed n =>
      obtain ⟨progress, hleg, stage, rfl, hcall⟩ := h
      obtain ⟨frame, info, copy, rfl⟩ := hstage hcall
      simp [verdict?, hleg]
  | follow i =>
      obtain ⟨a, rfl, call, rfl, stage, hbegin, hcall⟩ := h
      obtain ⟨frame, info, copy, rfl⟩ := hstage hcall
      obtain ⟨rfl, _⟩ := Sender.begin_encode hbegin
      simp [verdict?]

/-- A move that brings a submission to its end does no more than that. -/
theorem step_of_verdict {move : Move} {verdict : Verdict} (h : t.verdict? move = some verdict) :
    ∃ frame info copy, (t.step move).sender = (t.sender.encode frame info copy).1 ∧
      verdict = (t.sender.encode frame info copy).2 := by
  cases move with
  | enter c => simp [verdict?] at h
  | proceed n =>
      simp only [verdict?] at h
      split at h
      · rename_i frame info copy hleg
        refine ⟨frame, info, copy, ?_, (Option.some.inj h).symm⟩
        simp only [step, hleg]
        rfl
      · simp at h
  | follow i =>
      simp only [verdict?] at h
      split at h
      · rename_i frame info
        exact ⟨frame, info, t.sender.plan, rfl, (Option.some.inj h).symm⟩
      · simp at h

/-- Whatever a move does, the frames it passes on are those it has verdicts
on. -/
theorem step_accounted (ht : t.sender.Coherent) (hs : t.sender.callbacks.Silent) (move : Move) :
    ∃ new, (t.step move).sender.rack.journal = new ++ t.sender.rack.journal ∧
      Accounted (t.verdict? move).toList new := by
  cases hverdict : t.verdict? move with
  | some verdict =>
      obtain ⟨frame, info, copy, hsender, rfl⟩ := step_of_verdict hverdict
      rw [hsender]
      exact Sender.encode_accounted hs frame info copy
  | none =>
      obtain ⟨new, hjournal, hcalls⟩ := (step_passage ht move).journal
      have hnone : ∀ n c, (c = .skip ∨ ∃ f kinds info, c = EncoderCall.encode f kinds info) →
          .called n c ∉ new := by
        intro n c hc hmem
        have huses : c.Uses := by rcases hc with rfl | ⟨_, _, _, rfl⟩ <;> trivial
        exact (hcalls n c hmem huses).submits hc hverdict
      refine ⟨new, hjournal, .of_none ?_ ?_⟩
      · rw [skipCalls, List.countP_eq_zero]
        intro e he hskip
        unfold Event.isSkipCall at hskip
        split at hskip
        · exact hnone _ _ (Or.inl rfl) he
        · simp at hskip
      · rw [encodeCalls, List.countP_eq_zero]
        intro e he hencode
        unfold Event.isEncodeCall at hencode
        split at hencode
        · exact hnone _ _ (Or.inr ⟨_, _, _, rfl⟩) he
        · simp at hencode

theorem run_accounted (ht : t.sender.Coherent) (hs : t.sender.callbacks.Silent)
    {moves : List Move} (hcalm : ∀ move ∈ moves, move.Calm) :
    ∃ new, (t.run moves).sender.rack.journal = new ++ t.sender.rack.journal ∧
      Accounted (t.verdicts moves) new := by
  induction moves generalizing t with
  | nil => exact ⟨[], rfl, .of_none rfl rfl⟩
  | cons move rest ih =>
      obtain ⟨first, hfirst, hmove⟩ := step_accounted ht hs move
      obtain ⟨others, hothers, hrest⟩ := ih (step_coherent ht move)
        (step_silent hs (hcalm move (by simp))) fun m hm => hcalm m (by simp [hm])
      refine ⟨others ++ first, ?_, hmove.append hrest⟩
      rw [List.append_assoc, ← hfirst]
      exact hothers

/-- At every point of every run without callbacks: a submission without an
encoder does nothing; one with an encoder asks what it has to ask and has one
of six ends, of which only a successful encode call changes the plan; whether
the encoder takes the rates makes no difference to the end; and only a picture
too large for the 64-bit range stops the program. Over the whole run the books
balance. -/
theorem submissions_accounted {s : Sender} (hs : s.Fresh) (hsilent : s.callbacks.Silent)
    {moves : List Move} (hcalm : ∀ move ∈ moves, move.Calm) :
    ((run { sender := s } moves).sender.slot = none → ∀ frame info,
        (run { sender := s } moves).sender.submit frame info =
          ((run { sender := s } moves).sender, .error .uninitialized)) ∧
      (∀ slot, (run { sender := s } moves).sender.slot = some slot →
        (run { sender := s } moves).sender.plan.internalSource = slot.internalSource ∧
        ∀ frame info,
          (run { sender := s } moves).sender.Submitted slot frame info
              (run { sender := s } moves).sender.plan
              ((run { sender := s } moves).sender.submit frame info) ∧
            (∀ fault, (((run { sender := s } moves).sender.setRatesFault slot.encoder
                fault).submit frame info).2 =
              ((run { sender := s } moves).sender.submit frame info).2) ∧
            (((run { sender := s } moves).sender.submit frame info).2 =
              .error (.notReadable .aborted) → frame.Overflows)) ∧
      Accounted (verdicts { sender := s } moves)
        (entriesSince s.rack.journal (run { sender := s } moves).sender.rack.journal) := by
  have hcoherent : (run { sender := s } moves).sender.Coherent := run_coherent hs.coherent moves
  have hcallbacks : (run { sender := s } moves).sender.callbacks.Silent :=
    run_silent (t := { sender := s }) hsilent hcalm
  obtain ⟨new, hjournal, hnew⟩ :=
    run_accounted (t := { sender := s }) hs.coherent hsilent hcalm
  refine ⟨?_, ?_, ?_⟩
  · intro hslot frame info
    simp [Sender.submit, Sender.encode, hslot]
  · intro slot hslot
    exact ⟨hcoherent.source_of_slot hslot,
      fun frame info => Sender.submit_ends hcoherent hcallbacks hslot frame info⟩
  · rw [hjournal, entriesSince_append]
    exact hnew

def submission (frame : Frame) : Move := .follow (.act (.call (.submit frame none)))

/-- Submissions that come to every end: one before there is an encoder, one
without a target, one while the encoder fails, one of a wrong resolution, one
that cannot be read, one that is encoded and one that is dropped. -/
def busy : List Move :=
  [submission Sender.sampleFrame,
    .follow (.act (Sender.sampleRegistration 1)),
    submission Sender.sampleFrame,
    .follow (.act Sender.sampleFeedback),
    .enter (.submit Sender.sampleFrame none),
    .follow (.act (.setFaults 0 { encode := some (some .memory) })),
    .proceed 0,
    submission { picture := .planar ⟨⟨4, 4⟩, #[]⟩ },
    submission { picture := .unreadable ⟨2, 2⟩ ["gone"] },
    .follow (.act (.setFaults 0 { encode := some none })),
    submission Sender.sampleFrame,
    .follow (.act (.setScript { drop := some true })),
    submission Sender.sampleFrame]

theorem submissions_accounted_busy :
    Sender.sample.Fresh ∧ Sender.sample.callbacks.Silent ∧ (∀ move ∈ busy, move.Calm) ∧
      (verdicts { sender := Sender.sample } busy).map Reply.ofSubmission =
        [.submitted .dropped, .submitted (.encoded [.key]), .failed (.notReadable (.failed ["gone"])),
          .failed (.wrongResolution (some ⟨2, 2⟩) ⟨4, 4⟩), .failed (.encoder .memory),
          .submitted .gated, .failed .uninitialized] ∧
      Accounted (verdicts { sender := Sender.sample } busy)
        (entriesSince Sender.sample.rack.journal
          (run { sender := Sender.sample } busy).sender.rack.journal) := by
  have hsilent : Sender.sample.callbacks.Silent := ⟨fun _ => rfl, rfl⟩
  have hcalm : ∀ move ∈ busy, move.Calm := by simp [busy, submission, Move.Calm]
  exact ⟨Sender.sample_fresh, hsilent, hcalm, by decide +kernel,
    (submissions_accounted Sender.sample_fresh hsilent hcalm).2.2⟩

end Traffic

end Simulcast
