import Mathlib.Data.List.Basic
import Simulcast.Proofs.Sender.Coherent

/-!
Everything a call, or any section of one, can do to a sender. There are six
ways for a sender to pass from one state to the next; what holds along every
one of them holds along every call and every run, so invariants are proved by
induction on the passage and never by looking at the calls again.
-/

namespace Simulcast

/-- Entries of a time in which encoders are used: only the one in `slot`, by
calls from `C`. -/
def Event.Using (slot : Option Handle) (C : EncoderCall → Prop) : Event → Prop
  | .called n c => c.Uses ∧ C c ∧ slot.map Handle.encoder = some n
  | .answered _ c _ => c.Uses
  | .log (.registered _ _) => False
  | _ => True

variable {e : Event} {C D : EncoderCall → Prop}

theorem Event.Using.routine {slot : Option Handle} (h : e.Using slot C) : e.Routine := by
  cases e with
  | called n c => exact h.1
  | log notice => cases notice <;> exact h
  | _ => exact h

theorem Event.CallsOn.using {slot : Handle} {R : EncoderCall → Prop}
    (h : e.CallsOn slot.encoder D R) (huses : ∀ c, D c → c.Uses) (hC : ∀ c, D c → C c) :
    e.Using (some slot) C := by
  cases e with
  | called n c =>
      obtain ⟨hn, hc⟩ := h
      exact ⟨huses c hc, hC c hc, congrArg some hn.symm⟩
  | answered n c fault => exact huses c h.2.1
  | log notice => cases notice <;> exact h
  | _ => trivial

namespace Sender

variable {s s' : Sender}

/-- The calls on the encoder in the slot that a stage may make. -/
def StageCall (s : Sender) (stage : EncoderStage) (c : EncoderCall) : Prop :=
  match stage with
  | .encode frame info copy =>
      ∃ slot, s.slot = some slot ∧ s.SubmissionCall slot frame info (s.currentPlan copy) c
  | .pullKey _ =>
      ∃ slot, s.slot = some slot ∧ slot.internalSource = true ∧
        c = .request s.plan.schedule.kinds
  | .pushRates rates => c = .configure (s.seenRates rates)
  | .register _ _ _ | .attach _ _ _ | .detach _ | .enableDropping _ => False

theorem StageCall.encode {stage : EncoderStage} {f : Frame} {carried : List FrameKind}
    {inf : Option SideInfo} (h : s.StageCall stage (.encode f carried inf)) :
    ∃ frame info copy, stage = .encode frame info copy ∧
      carried = (s.currentPlan copy).schedule.kinds := by
  cases stage with
  | encode frame info copy =>
      obtain ⟨slot, _, _, _, hkinds, _, _⟩ := h
      exact ⟨frame, info, copy, rfl, hkinds⟩
  | pullKey stream =>
      obtain ⟨_, _, _, heq⟩ := h
      exact EncoderCall.noConfusion heq
  | pushRates rates => exact EncoderCall.noConfusion h
  | _ => exact h.elim

/-- From `s` to `s'` by a call or one of its sections, using the encoder in the
slot by calls from `C`. Whatever comes before the encoder is needed is over
before anything happens to the encoder. -/
inductive Passage (C : EncoderCall → Prop) : Sender → Sender → Prop where
  /-- The encoder is used and callbacks run. -/
  | stretch {s s' : Sender} {new : List Event} (h : Stretch (Event.Using s.slot C) s s' new) :
      Passage C s s'
  /-- An encode call succeeds, and what it carried is settled. -/
  | settled {s mid : Sender} {new : List Event}
      (h : Stretch (Event.Using s.slot C) s mid new) (encoded : 0 < encodings new)
      (carried : Schedule) :
      Passage C s (mid.storeSchedule (mid.plan.schedule.clearSatisfied carried))
  /-- An internal source takes a request, and its stream is served. -/
  | served {s mid : Sender} {slot : Handle} {new : List Event}
      (h : Stretch (Event.Using s.slot C) s mid new) (slot_eq : s.slot = some slot)
      (source : slot.internalSource = true) (i : Nat) :
      Passage C s (mid.storeSchedule (mid.plan.schedule.serve i))
  /-- A codec is registered. -/
  | registered {s s' : Sender} {codec : Codec} {maxPayload : Nat}
      (h : s.Registered s' codec maxPayload) (coherent : s'.Coherent) : Passage C s s'
  /-- Encoders are attached, set up or given up, and no codec is registered. -/
  | unregistered {s s' : Sender} (h : s.Unregistered s') (coherent : s'.Coherent) :
      Passage C s s'
  /-- The rate controller is asked first. -/
  | after {s mid s' : Sender} {new : List Event} (h : Stretch Event.Beside s mid new)
      (rest : Passage C mid s') : Passage C s s'
  /-- A key frame request marks its stream first. -/
  | marked {s s' : Sender} (i : Nat)
      (rest : Passage C (s.storeSchedule (s.plan.schedule.mark i)) s') : Passage C s s'

theorem Passage.refl (C : EncoderCall → Prop) (s : Sender) : Passage C s s :=
  .stretch (Stretch.refl _ s)

/-- The joint invariant holds along every passage. -/
theorem Passage.coherent (h : Passage C s s') (hs : s.Coherent) : s'.Coherent := by
  induction h with
  | stretch h => exact h.coherent (fun _ he => he.routine) hs
  | settled h _ carried =>
      exact (h.coherent (fun _ he => he.routine) hs).storeSchedule _ (by simp) (by simp)
  | served h _ _ i =>
      exact (h.coherent (fun _ he => he.routine) hs).storeSchedule _ (by simp) (by simp)
  | registered _ hcoherent => exact hcoherent
  | unregistered _ hcoherent => exact hcoherent
  | after h _ ih => exact ih (h.coherent (fun _ he => he.routine) hs)
  | marked i _ ih => exact ih (hs.storeSchedule _ (by simp) (by simp))

theorem Stretch.using_calls {slot : Option Handle} {new : List Event}
    (h : Stretch (Event.Using slot C) s s' new) {n : Nat} {c : EncoderCall}
    (hmem : .called n c ∈ new) : C c :=
  (h.entries _ hmem).2.1

/-- The journal only grows, and the calls on an encoder in use are from `C`. -/
theorem Passage.journal (h : Passage C s s') :
    ∃ new, s'.rack.journal = new ++ s.rack.journal ∧
      ∀ n c, .called n c ∈ new → c.Uses → C c := by
  induction h with
  | stretch h => exact ⟨_, h.journal, fun _ _ hmem _ => h.using_calls hmem⟩
  | settled h _ carried => exact ⟨_, h.journal, fun _ _ hmem _ => h.using_calls hmem⟩
  | served h _ _ i => exact ⟨_, h.journal, fun _ _ hmem _ => h.using_calls hmem⟩
  | registered h _ =>
      obtain ⟨new, hjournal, _, hnew⟩ := h.journal
      refine ⟨new, hjournal, fun n c hmem huse => ?_⟩
      rcases hnew _ hmem with hsetup | heq
      · exact absurd huse hsetup
      · simp at heq
  | unregistered h _ =>
      obtain ⟨new, hjournal, hnew⟩ := h.journal
      exact ⟨new, hjournal, fun _ _ hmem huse => absurd huse (hnew _ hmem)⟩
  | after h _ ih =>
      obtain ⟨new, hjournal, hcalls⟩ := ih
      refine ⟨new ++ _, by rw [hjournal, h.journal, List.append_assoc], ?_⟩
      intro n c hmem huse
      rcases List.mem_append.mp hmem with hmem | hmem
      · exact hcalls n c hmem huse
      · exact (h.entries _ hmem).elim
  | marked i _ ih => exact ih

theorem encode_passage (s : Sender) (frame : Frame) (info : Option SideInfo) (copy : Plan) :
    Passage (s.StageCall (.encode frame info copy)) s (s.encode frame info copy).1 := by
  cases hslot : s.slot with
  | none =>
      have heq : (s.encode frame info copy).1 = s := by simp [encode, hslot]
      rw [heq]
      exact Passage.refl _ s
  | some slot =>
      obtain ⟨mid, new, hmid, hend⟩ := s.encodeOn_end slot frame info (s.currentPlan copy)
      have husing : Stretch (Event.Using s.slot (s.StageCall (.encode frame info copy)))
          s mid new := by
        rw [hslot]
        exact hmid.toStretch.mono fun _ he =>
          he.using (fun _ => SubmissionCall.uses s slot frame info _)
            fun _ hc => ⟨slot, hslot, hc⟩
      rw [s.encode_of_slot hslot]
      rcases hend with ⟨hafter, _⟩ | ⟨hafter, _, f, rest, hnew⟩
      · rw [hafter]
        exact .stretch husing
      · rw [hafter]
        refine .settled husing ?_ _
        rw [hnew, encodings, List.countP_pos_iff]
        exact ⟨_, List.mem_cons_self, rfl⟩

theorem pullKey_passage (s : Sender) (stream : Nat) :
    Passage (s.StageCall (.pullKey stream)) s (s.pullKey stream).1 := by
  have husing : ∀ (slot : Handle) (accepted : Prop) (mid : Sender) (new : List Event),
      s.slot = some slot → slot.internalSource = true →
      Interval (s.RequestEntry slot accepted) s mid new →
      Stretch (Event.Using s.slot (s.StageCall (.pullKey stream))) s mid new := by
    intro slot accepted mid new hslot hsource hmid
    rw [hslot]
    exact hmid.toStretch.mono fun _ he =>
      he.using (fun _ hc => hc ▸ trivial) fun _ hc => ⟨slot, hslot, hsource, hc⟩
  rcases s.pullKey_end stream with
    heq | ⟨slot, mid, new, hslot, hsource, _, ⟨hmid, heq⟩ | ⟨hmid, heq, _⟩⟩
  · rw [heq]
    exact Passage.refl _ s
  · rw [heq]
    exact .stretch (husing slot _ mid new hslot hsource hmid)
  · rw [heq]
    exact .served (husing slot _ mid new hslot hsource hmid) hslot hsource stream

theorem pushRates_passage (s : Sender) (rates : RateParameters) :
    Passage (s.StageCall (.pushRates rates)) s (s.pushRates rates).1 := by
  rcases s.pushRates_end rates with ⟨_, heq⟩ | ⟨slot, new, hslot, hpush⟩
  · rw [heq]
    exact Passage.refl _ s
  · have husing : Stretch (Event.Using s.slot (s.StageCall (.pushRates rates))) s
        (s.pushRates rates).1 new := by
      rw [hslot]
      exact hpush.toStretch.mono fun _ he => he.using (fun _ hc => hc ▸ trivial) fun _ hc => hc
    exact .stretch husing

theorem runStage_passage (hs : s.Coherent) (stage : EncoderStage) :
    Passage (s.StageCall stage) s (s.runStage stage).1 := by
  cases stage with
  | encode frame info copy => exact s.encode_passage frame info copy
  | pullKey stream => exact s.pullKey_passage stream
  | pushRates rates => exact s.pushRates_passage rates
  | register codec cores maxPayload =>
      obtain ⟨hcoherent, ⟨hdone, _⟩ | ⟨hfailed, _⟩⟩ := register_end hs codec cores maxPayload
      · exact .registered hdone hcoherent
      · exact .unregistered hfailed hcoherent
  | attach payloadType internalSource choice =>
      obtain ⟨hcoherent, hunregistered⟩ := attach_end hs payloadType internalSource choice
      exact .unregistered hunregistered hcoherent
  | detach payloadType =>
      obtain ⟨hcoherent, hunregistered⟩ := detach_end hs payloadType
      exact .unregistered hunregistered hcoherent
  | enableDropping on =>
      obtain ⟨hcoherent, hunregistered⟩ := enableDropping_end hs on
      exact .unregistered hunregistered hcoherent

/-- The calls on the encoder in the slot that the rest of a call may make. -/
def ProgressCall (s : Sender) (progress : Progress) (c : EncoderCall) : Prop :=
  ∃ stage, progress = .waits stage ∧ s.StageCall stage c

theorem Passage.mono (h : Passage C s s') (hCD : ∀ c, C c → D c) : Passage D s s' := by
  have husing : ∀ {t t' : Sender} {new : List Event},
      Stretch (Event.Using t.slot C) t t' new → Stretch (Event.Using t.slot D) t t' new := by
    intro t t' new h
    refine h.mono fun e he => ?_
    cases e with
    | called n c => exact ⟨he.1, hCD c he.2.1, he.2.2⟩
    | log notice => cases notice <;> exact he
    | _ => exact he
  induction h with
  | stretch h => exact .stretch (husing h)
  | settled h hencoded carried => exact .settled (husing h) hencoded carried
  | served h hslot hsource i => exact .served (husing h) hslot hsource i
  | registered h hcoherent => exact .registered h hcoherent
  | unregistered h hcoherent => exact .unregistered h hcoherent
  | after h _ ih => exact .after h ih
  | marked i _ ih => exact .marked i ih

theorem finish_passage (hs : s.Coherent) (progress : Progress) :
    Passage (s.ProgressCall progress) s (s.finish progress).1 := by
  cases progress with
  | waits stage => exact (runStage_passage hs stage).mono fun _ hc => ⟨stage, rfl, hc⟩
  | finished reply => exact Passage.refl _ s

theorem Stretch.passage {new : List Event} (h : Stretch Event.Beside s s' new) :
    Passage C s s' :=
  .after h (Passage.refl C s')

theorem Passage.after_begin (c : Call) (h : Passage C (s.begin c).1 s') : Passage C s s' := by
  rcases s.begin_cases c with ⟨i, _, hmarked⟩ | ⟨_, new, hbegin⟩
  · rw [hmarked] at h
    exact .marked i h
  · exact .after hbegin.toStretch h

theorem begin_passage (s : Sender) (c : Call) : Passage C s (s.begin c).1 :=
  .after_begin c (Passage.refl C _)

theorem begin_coherent (hs : s.Coherent) (c : Call) : (s.begin c).1.Coherent := by
  have hbegin : Passage (fun _ => False) s (s.begin c).1 := s.begin_passage c
  exact hbegin.coherent hs

theorem begin_slot (s : Sender) (c : Call) :
    (s.begin c).1.registry = s.registry ∧ (s.begin c).1.slot = s.slot ∧
      (s.begin c).1.codec = s.codec := by
  rcases s.begin_cases c with ⟨i, _, hmarked⟩ | ⟨_, new, hbegin⟩
  · rw [hmarked]
    exact ⟨rfl, rfl, rfl⟩
  · exact ⟨hbegin.registry, hbegin.slot, hbegin.codec⟩

/-- The call has come to `s'`, and the stage is what is left of it. Requests and
feedback have something left only if the plan names an internal source. -/
inductive Begun (s s' : Sender) : Call → EncoderStage → Prop where
  | submit (frame : Frame) (info : Option SideInfo) (same : s' = s) :
      Begun s s' (.submit frame info) (.encode frame info s.plan)
  | requestKey (i : Nat) (range : i < s.plan.schedule.size) :
      Begun s s' (.requestKey i) (.pullKey i)
  | feedback (report : Feedback) (rates : RateParameters)
      (source : s'.plan.internalSource = true) : Begun s s' (.feedback report) (.pushRates rates)
  | register (codec : Codec) (cores : UInt32) (maxPayload : Nat) :
      Begun s s' (.register codec cores maxPayload) (.register codec cores maxPayload)
  | attach (payloadType : UInt8) (internalSource : Bool) (encoder : EncoderChoice) :
      Begun s s' (.attach payloadType internalSource encoder)
        (.attach payloadType internalSource encoder)
  | detach (payloadType : UInt8) : Begun s s' (.detach payloadType) (.detach payloadType)
  | enableDropping (on : Bool) : Begun s s' (.enableDropping on) (.enableDropping on)

theorem begin_waits {c : Call} {stage : EncoderStage} (h : (s.begin c).2 = .waits stage) :
    s.Begun (s.begin c).1 c stage := by
  cases c with
  | submit frame info =>
      obtain rfl := Progress.waits.inj h
      exact .submit frame info rfl
  | requestKey i =>
      by_cases hi : i < s.plan.schedule.size
      · simp only [begin, markKey, Schedule.requestKey_eq, if_pos hi] at h
        split at h
        · obtain rfl := Progress.waits.inj h
          exact .requestKey i hi
        · simp at h
      · simp [begin, markKey, Schedule.requestKey_eq, hi] at h
  | feedback report =>
      simp only [begin, keepRates] at h ⊢
      split at h
      · rename_i hsource
        obtain rfl := Progress.waits.inj h
        exact .feedback report _ hsource
      · simp at h
  | register codec cores maxPayload =>
      obtain rfl := Progress.waits.inj h
      exact .register codec cores maxPayload
  | attach payloadType internalSource encoder =>
      obtain rfl := Progress.waits.inj h
      exact .attach payloadType internalSource encoder
  | detach payloadType =>
      obtain rfl := Progress.waits.inj h
      exact .detach payloadType
  | enableDropping on =>
      obtain rfl := Progress.waits.inj h
      exact .enableDropping on

/-- Only a submission waits with a copy. It is of the plan as it is, and
nothing else has happened. -/
theorem begin_encode {c : Call} {frame : Frame} {info : Option SideInfo} {copy : Plan}
    (h : (s.begin c).2 = .waits (.encode frame info copy)) :
    c = .submit frame info ∧ copy = s.plan ∧ (s.begin c).1 = s := by
  cases begin_waits h with
  | submit _ _ same => exact ⟨rfl, rfl, same⟩

/-- Only a request for a stream there is waits to ask for a key frame. -/
theorem begin_pullKey {c : Call} {i : Nat} (h : (s.begin c).2 = .waits (.pullKey i)) :
    c = .requestKey i ∧ i < s.plan.schedule.size := by
  cases begin_waits h with
  | requestKey _ range => exact ⟨rfl, range⟩

/-- Only feedback waits with rates, and only for an internal source. -/
theorem begin_pushRates {c : Call} {rates : RateParameters}
    (h : (s.begin c).2 = .waits (.pushRates rates)) :
    (∃ report, c = .feedback report) ∧ (s.begin c).1.plan.internalSource = true := by
  cases begin_waits h with
  | feedback report _ source => exact ⟨⟨report, rfl⟩, source⟩

/-- A whole request marks its stream, and then it may ask the encoder. -/
theorem call_requestKey (s : Sender) (j : Nat) :
    (s.call (.requestKey j)).1 = s.storeSchedule (s.plan.schedule.mark j) ∨
      (s.call (.requestKey j)).1 = ((s.storeSchedule (s.plan.schedule.mark j)).pullKey j).1 := by
  have hmarked := s.markKey_fst j
  have hcall : (s.call (.requestKey j)).1 = ((s.markKey j).1.finish (s.markKey j).2).1 := rfl
  cases hprogress : (s.markKey j).2 with
  | finished reply =>
      left
      rw [hcall, hprogress, hmarked]
      rfl
  | waits stage =>
      right
      have hstage : stage = .pullKey j := by
        cases s.begin_waits (c := .requestKey j) hprogress with
        | requestKey _ _ => rfl
      rw [hcall, hprogress, hmarked, hstage]
      rfl

/-- The whole of network feedback: no call but to hand rates to the encoder. -/
theorem feedback_interval (s : Sender) (report : Feedback) :
    ∃ n new, Interval (Event.CallsOn n (fun c => ∃ rates, c = .configure rates) fun _ => True) s
      (s.call (.feedback report)).1 new := by
  obtain ⟨first, hbegin⟩ := s.begin_interval (.feedback report) nofun
  have hcall : (s.call (.feedback report)).1 =
      ((s.begin (.feedback report)).1.finish (s.begin (.feedback report)).2).1 := rfl
  cases hprogress : (s.begin (.feedback report)).2 with
  | finished reply =>
      rw [hcall, hprogress]
      exact ⟨0, first, hbegin.mono fun _ he => he.aside.callsOn _ _ _⟩
  | waits stage =>
      have hstage : ∃ rates, stage = .pushRates rates := by
        cases begin_waits hprogress with
        | feedback _ rates _ => exact ⟨rates, rfl⟩
      obtain ⟨rates, rfl⟩ := hstage
      have hpushed : (s.call (.feedback report)).1 =
          ((s.begin (.feedback report)).1.pushRates rates).1 := by
        rw [hcall, hprogress]
        rfl
      rw [hpushed]
      rcases (s.begin (.feedback report)).1.pushRates_end rates with
        ⟨_, heq⟩ | ⟨slot, new, _, hpush⟩
      · rw [heq]
        exact ⟨0, first, hbegin.mono fun _ he => he.aside.callsOn _ _ _⟩
      · refine ⟨slot.encoder, new ++ first, (hbegin.mono fun _ he => he.aside.callsOn _ _ _).trans
          (hpush.mono fun e he => ?_)⟩
        exact he.mono fun c hc => ⟨_, hc⟩

theorem act_eq_actInside (s : Sender) {a : Action} (h : ∀ c, a ≠ .call c) :
    s.act a = s.actInside a := by
  cases a with
  | call c => exact absurd rfl (h c)
  | _ => rfl

/-- The calls on the encoder in the slot that an action may make. -/
def ActionCall (s : Sender) (a : Action) (c : EncoderCall) : Prop :=
  ∃ call, a = .call call ∧ (s.begin call).1.ProgressCall (s.begin call).2 c

theorem act_passage (hs : s.Coherent) (a : Action) : Passage (s.ActionCall a) s (s.act a).1 := by
  by_cases h : ∃ c, a = .call c
  · obtain ⟨c, rfl⟩ := h
    have hfinish := finish_passage (begin_coherent hs c) (s.begin c).2
    exact .after_begin c (hfinish.mono fun _ hc => ⟨c, rfl, hc⟩)
  · obtain ⟨new, hact⟩ := s.actInside_interval a fun i ha => h ⟨_, ha⟩
    rw [s.act_eq_actInside fun c hc => h ⟨c, hc⟩]
    exact hact.toStretch.passage

/-- All but calls happens beside the encoder. -/
theorem follow_stretch (s : Sender) {i : Instruction} (h : ∀ c, i ≠ .act (.call c)) :
    ∃ new, Stretch Event.Beside s (s.follow i).1 new := by
  cases i with
  | act a =>
      have hother : ∀ c, a ≠ .call c := fun c ha => h c (congrArg Instruction.act ha)
      obtain ⟨new, hact⟩ := s.actInside_interval a fun j => hother (.requestKey j)
      rw [← s.act_eq_actInside hother] at hact
      exact ⟨new, hact.toStretch⟩
  | onEncode n instructions =>
      refine ⟨[], ?_⟩
      show Stretch _ s (s.setOnEncode n instructions).1 []
      unfold setOnEncode
      split <;> exact ⟨rfl, rfl, rfl, rfl, rfl, rfl, Rack.Alike.refl _, rfl, by simp⟩
  | onImage instructions =>
      exact ⟨[], rfl, rfl, rfl, rfl, rfl, rfl, Rack.Alike.refl _, rfl, by simp⟩

theorem follow_passage (hs : s.Coherent) (i : Instruction) :
    Passage (fun c => ∃ a, i = .act a ∧ s.ActionCall a c) s (s.follow i).1 := by
  by_cases hcall : ∃ c, i = .act (.call c)
  · obtain ⟨c, rfl⟩ := hcall
    exact (act_passage hs (.call c)).mono fun _ hc => ⟨.call c, rfl, hc⟩
  · obtain ⟨new, h⟩ := s.follow_stretch fun c hc => hcall ⟨c, hc⟩
    exact h.passage

theorem act_coherent (hs : s.Coherent) (a : Action) : (s.act a).1.Coherent :=
  (act_passage hs a).coherent hs

/-- Any sequence of actions, whichever of them fail, keeps a sender
coherent. -/
theorem run_coherent (hs : s.Coherent) (actions : List Action) : (s.run actions).Coherent := by
  induction actions generalizing s with
  | nil => exact hs
  | cons a rest ih => exact ih (act_coherent hs a)

end Sender

end Simulcast
