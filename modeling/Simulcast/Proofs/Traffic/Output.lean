import Simulcast.Proofs.Sender.Output
import Simulcast.Proofs.Traffic.Accounting
import Simulcast.Proofs.Traffic.CallSafety

/-!
Encoded output over whole runs. Encoders are attached, registered, released and
registered again, calls overlap, callbacks interrupt them and any call may fail.
At every point of every run without basic encoders, a move asks an encoder for a
frame at most once. If the encoder takes that, the move delivers one image for
each kind it was asked for, of the codec that is registered, and otherwise none.
So every image that rate control was told of was handed out as well, and the bytes
it was told of are those of the kinds of frame that encoders took.
-/

namespace Simulcast

/-- Whatever a call attaches is no basic encoder. -/
def Call.Synthetic : Call → Prop
  | .attach _ _ choice => choice.Synthetic
  | _ => True

/-- Whatever a move attaches is no basic encoder. -/
def Move.Synthetic : Move → Prop
  | .enter c | .follow (.act (.call c)) => c.Synthetic
  | _ => True

theorem Sender.Begun.synthetic {s s' : Sender} {c : Call} {stage : EncoderStage}
    (h : s.Begun s' c stage) (hc : c.Synthetic) : stage.Synthetic := by
  cases h with
  | attach payloadType internalSource encoder => exact hc
  | _ => trivial

namespace Traffic

variable {t : Traffic} {covered : Prop}

/-- The active encoder can deliver images, and no call under way attaches an
encoder that cannot. -/
structure Wired (t : Traffic) : Prop where
  sender : t.sender.Wired
  calls : ∀ (n : Nat) (stage : EncoderStage),
    t.calls[n]? = some (.reached (.waits stage)) → stage.Synthetic

theorem enter_wired (ht : t.Wired) {c : Call} (hc : c.Synthetic) : (t.step (.enter c)).Wired where
  sender := by
    show (t.sender.enter c).1.Wired
    rcases enter_cases t.sender c with ⟨report, rfl, heq⟩ | heq
    · rw [heq]
      obtain ⟨new, h⟩ := t.sender.regulate_interval report
      exact h.toStretch.wired ht.sender
    · rw [heq]
      exact Sender.begin_wired ht.sender c
  calls n stage hcall := by
    change (t.calls ++ [(t.sender.enter c).2])[n]? = _ at hcall
    rcases Nat.lt_or_ge n t.calls.length with hold | hnew
    · rw [List.getElem?_append_left hold] at hcall
      exact ht.calls n stage hcall
    · rw [List.getElem?_append_right hnew, List.getElem?_singleton] at hcall
      split at hcall
      · obtain ⟨_, hbegin⟩ := enter_waits (Option.some.inj hcall)
        exact (Sender.begin_waits hbegin).synthetic hc
      · simp at hcall

theorem proceed_wired (hcoherent : t.sender.Coherent) (ht : t.Wired) (k : Nat) :
    (t.step (.proceed k)).Wired := by
  cases hleg : t.calls[k]? with
  | none =>
      have heq : t.step (.proceed k) = t := by simp [step, hleg]
      rwa [heq]
  | some leg =>
      have heq : t.step (.proceed k) =
          ⟨(t.sender.proceed leg).1, t.calls.set k (t.sender.proceed leg).2⟩ := by
        simp [step, hleg]
      rw [heq]
      constructor
      · cases leg with
        | regulated rates => exact ht.sender
        | reached progress =>
            cases progress with
            | finished reply => exact ht.sender
            | waits stage => exact Sender.runStage_wired hcoherent ht.sender (ht.calls k stage hleg)
      · intro n stage hcall
        by_cases hkn : k = n
        · subst hkn
          have hlt : k < t.calls.length := (List.getElem?_eq_some_iff.mp hleg).1
          rw [List.getElem?_set_self hlt] at hcall
          obtain ⟨rates, _, rfl, _⟩ := proceed_waits (Option.some.inj hcall)
          trivial
        · rw [List.getElem?_set_ne hkn] at hcall
          exact ht.calls n stage hcall

theorem follow_wired (hcoherent : t.sender.Coherent) (ht : t.Wired) {i : Instruction}
    (hi : (Move.follow i).Synthetic) : (t.step (.follow i)).Wired where
  sender := by
    show (t.sender.follow i).1.Wired
    by_cases hcall : ∃ c, i = .act (.call c)
    · obtain ⟨c, rfl⟩ := hcall
      have hbegun := Sender.begin_wired ht.sender c
      show ((t.sender.begin c).1.finish (t.sender.begin c).2).1.Wired
      cases hprogress : (t.sender.begin c).2 with
      | finished reply => exact hbegun
      | waits stage =>
          exact Sender.runStage_wired (Sender.begin_coherent hcoherent c) hbegun
            ((Sender.begin_waits hprogress).synthetic hi)
    · obtain ⟨new, h⟩ := t.sender.follow_stretch fun c hc => hcall ⟨c, hc⟩
      exact h.wired ht.sender
  calls := ht.calls

theorem step_wired (hcoherent : t.sender.Coherent) (ht : t.Wired) {move : Move}
    (hmove : move.Synthetic) : (t.step move).Wired := by
  cases move with
  | enter c => exact enter_wired ht hmove
  | proceed k => exact proceed_wired hcoherent ht k
  | follow i => exact follow_wired hcoherent ht hmove

theorem run_wired (hcoherent : t.sender.Coherent) (ht : t.Wired) {moves : List Move}
    (hmoves : ∀ move ∈ moves, move.Synthetic) : (t.run moves).Wired := by
  induction moves generalizing t with
  | nil => exact ht
  | cons move rest ih =>
      exact ih (step_coherent hcoherent move) (step_wired hcoherent ht (hmoves move (by simp)))
        fun m hm => hmoves m (by simp [hm])

/-- The frame of the submission that a move brings to its end, if it does. -/
def submitted? (t : Traffic) : Move → Option Frame
  | .proceed n =>
      match t.calls[n]? with
      | some (.reached (.waits (.encode frame _ _))) => some frame
      | _ => none
  | .follow (.act (.call (.submit frame _))) => some frame
  | _ => none

/-- What comes out of a move, and that a submission brings what its verdict says. -/
def Produces (t : Traffic) (move : Move) (covered : Prop) : Prop :=
  ∃ taken, t.sender.Produces (t.step move).sender covered taken ∧
    ∀ frame verdict, t.submitted? move = some frame → t.verdict? move = some verdict →
      taken = verdict.taken? frame.timestamp

theorem Produces.of_idles {move : Move} (h : t.sender.Idles (t.step move).sender)
    (hnone : t.submitted? move = none) : t.Produces move covered :=
  ⟨none, h.produces, by simp [hnone]⟩

theorem enter_produces (t : Traffic) (c : Call) : t.Produces (.enter c) covered := by
  refine .of_idles ?_ rfl
  show t.sender.Idles (t.sender.enter c).1
  rcases enter_cases t.sender c with ⟨report, rfl, heq⟩ | heq
  · rw [heq]
    obtain ⟨_, hregulated⟩ := t.sender.regulate_interval report
    exact hregulated.toStretch.idles fun _ he => he.barren
  · rw [heq]
    exact t.sender.begin_idles c

/-- Of the sections of a call only the last one may ask for a frame. -/
theorem proceed_produces (ht : t.sender.Coherent) (hwired : t.sender.Wired) (n : Nat)
    (hcovers : ∀ frame info copy,
      t.calls[n]? = some (.reached (.waits (.encode frame info copy))) → covered →
      (t.sender.currentPlan copy).schedule.size = t.sender.plan.schedule.size) :
    t.Produces (.proceed n) covered := by
  cases hleg : t.calls[n]? with
  | none =>
      have hsame : t.step (.proceed n) = t := by simp [step, hleg]
      refine .of_idles ?_ (by simp [submitted?, hleg])
      rw [hsame]
      exact .refl t.sender
  | some leg =>
      have hsender : (t.step (.proceed n)).sender = (t.sender.proceed leg).1 := by
        simp [step, hleg]
      cases leg with
      | regulated rates =>
          refine .of_idles ?_ (by simp [submitted?, hleg])
          rw [hsender]
          exact .of_journal rfl
      | reached progress =>
          cases progress with
          | finished reply =>
              refine .of_idles ?_ (by simp [submitted?, hleg])
              rw [hsender]
              exact .refl t.sender
          | waits stage =>
              obtain ⟨taken, h, hsubmitted⟩ := Sender.runStage_produces ht hwired stage
                fun frame info copy heq => hcovers frame info copy (heq ▸ hleg)
              refine ⟨taken, hsender ▸ h, ?_⟩
              intro frame verdict hframe hverdict
              cases stage with
              | encode f info copy =>
                  simp only [submitted?, verdict?, hleg, Option.some.injEq] at hframe hverdict
                  rw [hsubmitted f info copy rfl, hverdict, hframe]
              | _ => simp [submitted?, hleg] at hframe

theorem follow_produces (ht : t.sender.Coherent) (hwired : t.sender.Wired) (i : Instruction) :
    t.Produces (.follow i) covered := by
  by_cases hcall : ∃ c, i = .act (.call c)
  · obtain ⟨c, rfl⟩ := hcall
    obtain ⟨taken, h, hsubmitted⟩ := Sender.call_produces ht hwired c
    refine ⟨taken, h, ?_⟩
    intro frame verdict hframe hverdict
    cases c with
    | submit f info =>
        simp only [submitted?, verdict?, Option.some.injEq] at hframe hverdict
        rw [hsubmitted f info rfl, hverdict, hframe]
    | _ => simp [submitted?] at hframe
  · have hother : ∀ c, i ≠ .act (.call c) := fun c hc => hcall ⟨c, hc⟩
    refine .of_idles (t.sender.follow_idles hother) ?_
    unfold submitted?
    split
    · rename_i heq
      cases heq
    · rename_i frame info heq
      exact absurd (Move.follow.inj heq) (hother _)
    · rfl

theorem step_produces (ht : t.sender.Coherent) (hwired : t.sender.Wired) (move : Move)
    (hcovers : ∀ n frame info copy, move = .proceed n →
      t.calls[n]? = some (.reached (.waits (.encode frame info copy))) → covered →
      (t.sender.currentPlan copy).schedule.size = t.sender.plan.schedule.size) :
    t.Produces move covered := by
  cases move with
  | enter c => exact enter_produces t c
  | proceed n =>
      exact proceed_produces ht hwired n fun frame info copy => hcovers n frame info copy rfl
  | follow i => exact follow_produces ht hwired i

/-- As long as generations have not gone around, a submission that goes on works
on a plan for as many streams as there are. -/
theorem currentPlan_size_of_recent {s : Sender} (hs : s.Coherent) {moves : List Move} {n : Nat}
    {frame : Frame} {info : Option SideInfo} {copy : Plan}
    (hleg : (run { sender := s } moves).calls[n]? =
      some (.reached (.waits (.encode frame info copy))))
    (hrecent : Recent { sender := s } moves (.proceed n)) :
    ((run { sender := s } moves).sender.currentPlan copy).schedule.size =
      (run { sender := s } moves).sender.plan.schedule.size := by
  have hstamped := run_stamped hs moves
  have hlt : n < (stamps { sender := s } moves).length := by
    rw [hstamped.length]
    exact (List.getElem?_eq_some_iff.mp hleg).1
  have hstamp := List.getElem?_eq_getElem hlt
  exact currentPlan_size (run_coherent hs moves)
    (hstamped.took n _ frame info copy hstamp hleg) (hrecent _ hstamp)

/-- Along a run the images and the calls tally. -/
theorem run_tallies (ht : t.sender.Coherent) (hwired : t.Wired) {moves : List Move}
    (hmoves : ∀ move ∈ moves, move.Synthetic) :
    ∃ new, (t.run moves).sender.rack.journal = new ++ t.sender.rack.journal ∧ Tallies new := by
  induction moves generalizing t with
  | nil => exact ⟨[], rfl, .of_none rfl rfl⟩
  | cons move rest ih =>
      -- How many streams the codec has makes no difference to the sums.
      obtain ⟨_, ⟨first, hfirst, hyields⟩, _⟩ :=
        step_produces ht hwired.sender move fun _ _ _ _ _ _ (h : False) => h.elim
      obtain ⟨others, hothers, hrest⟩ := ih (step_coherent ht move)
        (step_wired ht hwired (hmoves move (by simp))) fun m hm => hmoves m (by simp [hm])
      refine ⟨others ++ first, ?_, hrest.append hyields.tallies⟩
      rw [List.append_assoc, ← hfirst]
      exact hothers

theorem fresh_wired {s : Sender} (hs : s.Fresh) (hstocked : s.registry.Stocked s.rack) :
    Wired { sender := s } :=
  ⟨hstocked.wired_of_idle hs.active, by simp⟩

/-- At every point of every run without basic encoders, a move has an encoder take
a frame at most once, and then the codec's images are delivered, one for each
stream as long as generations have not gone around: each is accounted for and then
handed out, before the next one. Otherwise there are no images, and so it is for
submissions that are not encoded. Over the whole run what is accounted for is what
is handed out, and the bytes are those of the frame kinds that encoders took. -/
theorem output_accounted_once {s : Sender} (hs : s.Fresh)
    (hstocked : s.registry.Stocked s.rack) {moves : List Move}
    (hmoves : ∀ move ∈ moves, move.Synthetic) :
    (∀ before move after, moves = before ++ move :: after →
      ∃ taken new,
        (run { sender := s } (before ++ [move])).sender.rack.journal =
            new ++ (run { sender := s } before).sender.rack.journal ∧
          Yields (run { sender := s } before).sender.slot
            (run { sender := s } before).sender.codec (Recent { sender := s } before move)
            taken new ∧
          (taken = none → outputs new = []) ∧
          ∀ frame verdict, (run { sender := s } before).submitted? move = some frame →
            (run { sender := s } before).verdict? move = some verdict →
            taken = verdict.taken? frame.timestamp) ∧
      ∃ new, (run { sender := s } moves).sender.rack.journal = new ++ s.rack.journal ∧
        handedImages new = accountedImages new ∧
        (accountedImages new).map (·.kind) = takenKinds new ∧
        ((accountedImages new).map (·.size)).sum =
          4000 * (takenKinds new).count .key + 1000 * (takenKinds new).count .delta := by
  have hwired := fresh_wired hs hstocked
  constructor
  · rintro before move after rfl
    have hcoherent : (run { sender := s } before).sender.Coherent :=
      run_coherent hs.coherent before
    have hbefore : (run { sender := s } before).Wired :=
      run_wired hs.coherent hwired fun m hm => hmoves m (List.mem_append_left _ hm)
    have hcovers : ∀ n frame info copy, move = .proceed n →
        (run { sender := s } before).calls[n]? =
          some (.reached (.waits (.encode frame info copy))) →
        Recent { sender := s } before move →
        ((run { sender := s } before).sender.currentPlan copy).schedule.size =
          (run { sender := s } before).sender.plan.schedule.size := by
      rintro n frame info copy rfl hleg hrecent
      exact currentPlan_size_of_recent hs.coherent hleg hrecent
    obtain ⟨taken, ⟨new, hjournal, hyields⟩, hsubmission⟩ :=
      step_produces hcoherent hbefore.sender move hcovers
    refine ⟨taken, new, ?_, hyields, ?_, hsubmission⟩
    · rw [run_snoc]
      exact hjournal
    · rintro rfl
      exact hyields.outputs_eq_nil
  · obtain ⟨new, hjournal, htallies⟩ := run_tallies hs.coherent hwired hmoves
    refine ⟨new, hjournal, htallies.handed, htallies.kinds, ?_⟩
    rw [bytes_eq htallies.sized, htallies.kinds]

/-- An encoder of its own source is attached and used. While a submission is under
way it is detached, set to fail, attached again and registered for one more stream,
so that the submission fails. Then it works again, with a tick for every image that
is handed out. -/
def reused : List Move :=
  [.follow (.act (.call (.attach 96 true (.fresh { internalSource := true })))),
    .follow (.act (Sender.sampleRegistration 1)),
    .follow (.act (.call (.requestKey 0))),
    .follow (.act Sender.sampleFeedback),
    .enter (.submit Sender.sampleFrame none),
    .follow (.act (.call (.detach 96))),
    .follow (.act (.setFaults 0 { encode := some (some .memory) })),
    .follow (.act (.call (.attach 96 true (.existing 0)))),
    .follow (.act (Sender.sampleRegistration 2)),
    .proceed 0,
    .follow (.act (.setFaults 0 { encode := some none })),
    .follow (.onImage [.act .tick]),
    submission Sender.sampleFrame,
    submission Sender.sampleFrame]

theorem output_accounted_once_reused :
    Sender.sample.Fresh ∧ Sender.sample.registry.Stocked Sender.sample.rack ∧
      (∀ move ∈ reused, move.Synthetic) ∧
      ∃ new, (run { sender := Sender.sample } reused).sender.rack.journal =
          new ++ Sender.sample.rack.journal ∧
        handedImages new = accountedImages new ∧
        takenKinds new = [.delta, .delta, .key, .key, .key] ∧
        ((accountedImages new).map (·.size)).sum = 14000 := by
  have hstocked : Sender.sample.registry.Stocked Sender.sample.rack := by
    refine ⟨fun n => rfl, ?_⟩
    intro kind b hb
    obtain rfl := Option.some.inj hb
    rfl
  have hmoves : ∀ move ∈ reused, move.Synthetic := by
    simp [reused, submission, Move.Synthetic, Call.Synthetic, EncoderChoice.Synthetic,
      Sender.sampleRegistration, Sender.sampleFeedback]
  obtain ⟨new, hjournal, hhanded, _, hbytes⟩ :=
    (output_accounted_once Sender.sample_fresh hstocked hmoves).2
  have hnew : new = entriesSince Sender.sample.rack.journal
      (run { sender := Sender.sample } reused).sender.rack.journal := by
    rw [hjournal, entriesSince_append]
  have hkinds : takenKinds new = [.delta, .delta, .key, .key, .key] := by
    rw [hnew]
    decide +kernel
  refine ⟨Sender.sample_fresh, hstocked, hmoves, new, hjournal, hhanded, hkinds, ?_⟩
  rw [hbytes, hkinds]
  rfl

end Traffic

end Simulcast
