import Mathlib.Data.List.Basic
import Simulcast.Proofs.Picture.Deinterleaving
import Simulcast.Proofs.Sender.History

/-!
What a submission comes to, in full. With nothing done in callbacks, a
submission asks its collaborators in a fixed order: the encoder to take the
rates, rate control whether to drop the frame, and then the encoder once more,
to encode the frame or to hear that it does not get it. It ends in one of six
ways. Only one of these changes the plan, and whether the encoder took the
rates makes no difference to which it is.
-/

namespace Simulcast

namespace Event

/-- An encoder is called or answers, or rate control is told of the network or
asked about a frame. -/
def consults : Event → Bool
  | .called _ _ | .answered _ _ _ | .rate (.fed _ _ _ _) | .rate (.drop _) => true
  | _ => false

/-- An encoder is called to encode a frame. -/
def isEncodeCall : Event → Bool
  | .called _ (.encode _ _ _) => true
  | _ => false

/-- An encoder is told of a frame that it does not get. -/
def isSkipCall : Event → Bool
  | .called _ .skip => true
  | _ => false

end Event

/-- The entries in which collaborators are asked. -/
def consultations (journal : List Event) : List Event := journal.filter Event.consults

/-- The number of calls to encode a frame. -/
def encodeCalls (journal : List Event) : Nat := journal.countP Event.isEncodeCall

/-- The number of frames that encoders were told they do not get. -/
def skipCalls (journal : List Event) : Nat := journal.countP Event.isSkipCall

/-- Two frames of the same timing and rotation. The pictures may differ. -/
def Frame.Matches (f frame : Frame) : Prop :=
  f.timestamp = frame.timestamp ∧ f.renderTime = frame.renderTime ∧ f.rotation = frame.rotation

/-- Sizes that conversion of a mapped picture computes leave the 64-bit range. -/
def Frame.Overflows (frame : Frame) : Prop :=
  ∃ resolution data layout, frame.picture = .mapped resolution data layout ∧
    ¬ (FitsWord (frameBytes resolution.width.toNat resolution.height.toNat) ∧
      FitsWord (sourceEnd resolution.width.toNat resolution.height.toNat layout))

/-- Encoder `n` is called and answers, the answer first. -/
def exchange (n : Nat) (c : EncoderCall) (fault : Option EncoderFault) : List Event :=
  [.answered n c fault, .called n c]

theorem consultations_append (new old : List Event) :
    consultations (new ++ old) = consultations new ++ consultations old :=
  List.filter_append new old

theorem encodeCalls_append (new old : List Event) :
    encodeCalls (new ++ old) = encodeCalls new + encodeCalls old :=
  List.countP_append

theorem skipCalls_append (new old : List Event) :
    skipCalls (new ++ old) = skipCalls new + skipCalls old :=
  List.countP_append

/-- Nothing but consultations calls an encoder. -/
theorem encodeCalls_consultations (journal : List Event) :
    encodeCalls (consultations journal) = encodeCalls journal := by
  rw [encodeCalls, consultations, List.countP_filter, encodeCalls]
  congr 1
  funext e
  cases e <;> simp [Event.isEncodeCall, Event.consults]

theorem skipCalls_consultations (journal : List Event) :
    skipCalls (consultations journal) = skipCalls journal := by
  rw [skipCalls, consultations, List.countP_filter, skipCalls]
  congr 1
  funext e
  cases e <;> simp [Event.isSkipCall, Event.consults]

namespace Sender

variable {s s' s'' : Sender} {asked asked' : List Event}

/-- From `s` to `s'` collaborators are asked `asked`, the latest first. All
that changes is the rate controller and the encoders, and of the encoders not
which calls are to fail. -/
structure Asks (s s' : Sender) (asked : List Event) : Prop where
  plan : s'.plan = s.plan
  slot : s'.slot = s.slot
  registry : s'.registry = s.registry
  codec : s'.codec = s.codec
  callbacks : s'.callbacks = s.callbacks
  faults : ∀ n, (s'.rack.encoder n).faults = (s.rack.encoder n).faults
  journal : ∃ new, s'.rack.journal = new ++ s.rack.journal ∧ consultations new = asked

theorem Asks.refl (s : Sender) : s.Asks s [] :=
  ⟨rfl, rfl, rfl, rfl, rfl, fun _ => rfl, [], rfl, rfl⟩

theorem Asks.trans (h : s.Asks s' asked) (h' : s'.Asks s'' asked') :
    s.Asks s'' (asked' ++ asked) where
  plan := h'.plan.trans h.plan
  slot := h'.slot.trans h.slot
  registry := h'.registry.trans h.registry
  codec := h'.codec.trans h.codec
  callbacks := h'.callbacks.trans h.callbacks
  faults n := (h'.faults n).trans (h.faults n)
  journal := by
    obtain ⟨new, hjournal, hnew⟩ := h.journal
    obtain ⟨new', hjournal', hnew'⟩ := h'.journal
    refine ⟨new' ++ new, by rw [hjournal', hjournal, List.append_assoc], ?_⟩
    rw [consultations_append, hnew, hnew']

theorem asks_note (s : Sender) (e : Event) : s.Asks (s.note e) (consultations [e]) :=
  ⟨rfl, rfl, rfl, rfl, rfl, fun _ => rfl, [e], rfl, rfl⟩

theorem asks_log (s : Sender) (notice : Notice) : s.Asks (s.log notice) [] :=
  s.asks_note (.log notice)

theorem asks_rate (s : Sender) (rate : RateController) (c : RateCall) :
    s.Asks ({ s with rate := rate }.note (.rate c)) (consultations [.rate c]) :=
  ⟨rfl, rfl, rfl, rfl, rfl, fun _ => rfl, [.rate c], rfl, rfl⟩

theorem asks_callEncoder (s : Sender) (n : Nat) (c : EncoderCall) :
    s.Asks (s.callEncoder n c).1 (exchange n c (Rack.fault? (s.rack.call n c).2)) where
  plan := rfl
  slot := rfl
  registry := rfl
  codec := rfl
  callbacks := rfl
  faults m := s.rack.call_faults n m c
  journal := ⟨exchange n c (Rack.fault? (s.rack.call n c).2), s.rack.call_journal n c, rfl⟩

theorem asks_skipFrame (s : Sender) (n : Nat) :
    s.Asks (s.skipFrame n) (exchange n .skip none) :=
  s.asks_callEncoder n .skip

theorem asks_askDrop (s : Sender) : s.Asks s.askDrop.1 [.rate (.drop s.askDrop.2)] :=
  s.asks_rate _ (.drop s.askDrop.2)

theorem asks_perform (s : Sender) (n : Nat) (c : EncoderCall) :
    s.Asks { s with rack := (s.rack.perform n c).1 } [] where
  plan := rfl
  slot := rfl
  registry := rfl
  codec := rfl
  callbacks := rfl
  faults m := s.rack.perform_faults n m c
  journal := ⟨[], rfl, rfl⟩

theorem deliver_of_silent (hs : s.callbacks.Silent) (image : EncodedImage) :
    s.deliver image = (s.account image).note (.image image) := by
  have hnone : ((s.account image).note (.image image)).callbacks.onImage = [] := hs.2
  rw [deliver, hnone]
  rfl

theorem asks_deliver (hs : s.callbacks.Silent) (image : EncodedImage) :
    s.Asks (s.deliver image) [] := by
  have haccount := s.asks_rate (s.rate.account s.now image) (.accounted image)
  have himage := asks_note (s.account image) (.image image)
  rw [deliver_of_silent hs]
  exact haccount.trans himage

theorem asks_deliverAll (hs : s.callbacks.Silent) (images : List EncodedImage) :
    s.Asks (images.foldl deliver s) [] := by
  induction images generalizing s with
  | nil => exact .refl s
  | cons image rest ih =>
      have hdeliver := asks_deliver hs image
      have hrest : (s.deliver image).Asks (rest.foldl deliver (s.deliver image)) [] :=
        ih (hdeliver.callbacks ▸ hs)
      exact hdeliver.trans hrest

theorem produce_fault (s : Sender) (n : Nat) (c : EncoderCall) :
    Rack.fault? (s.produce n c).2 = Rack.fault? (s.rack.perform n c).2 := by
  simp only [produce]
  split <;> rename_i heq <;> rw [heq] <;> rfl

/-- Of a call that may deliver images, nothing is asked but the answer. -/
theorem asks_produce (hs : s.callbacks.Silent) (n : Nat) (c : EncoderCall) :
    s.Asks (s.produce n c).1 [.answered n c (Rack.fault? (s.produce n c).2)] := by
  have hperform := s.asks_perform n c
  simp only [produce]
  split
  · rename_i images _
    have hdelivered := asks_deliverAll (s := { s with rack := (s.rack.perform n c).1 }) hs images
    exact (hperform.trans hdelivered).trans (asks_note _ (.answered n c none))
  · exact hperform.trans (asks_note _ (.answered n c (some _)))

theorem callEncode_of_silent (hs : s.callbacks.Silent) (n : Nat) (frame : Frame)
    (kinds : List FrameKind) (info : Option SideInfo) :
    s.callEncode n frame kinds info =
      (s.note (.called n (.encode frame kinds info))).produce n (.encode frame kinds info) := by
  have hnone : (s.note (.called n (.encode frame kinds info))).callbacks.onEncode n = [] :=
    hs.1 n
  have hinterrupt : (s.note (.called n (.encode frame kinds info))).interrupt n =
      s.note (.called n (.encode frame kinds info)) := by
    simp only [interrupt, hnone]
  rw [callEncode, hinterrupt]

/-- An encode call is one exchange, and it fails as the encoder is to fail. -/
theorem callEncode_exchange (hs : s.callbacks.Silent) (n : Nat) (frame : Frame)
    (kinds : List FrameKind) (info : Option SideInfo) :
    s.Asks (s.callEncode n frame kinds info).1
        (exchange n (.encode frame kinds info) (s.rack.encoder n).faults.encode) ∧
      Rack.fault? (s.callEncode n frame kinds info).2 = (s.rack.encoder n).faults.encode := by
  have hcalled := s.asks_note (.called n (.encode frame kinds info))
  have hcall := callEncode_of_silent hs n frame kinds info
  have hfault : Rack.fault? (s.callEncode n frame kinds info).2 =
      (s.rack.encoder n).faults.encode := by
    rw [hcall, produce_fault]
    show Rack.fault? (Encoder.outcome (s.rack.encoder n).faults.encode _) = _
    cases (s.rack.encoder n).faults.encode <;> rfl
  refine ⟨?_, hfault⟩
  have hproduced := asks_produce (s := s.note (.called n (.encode frame kinds info))) hs n
    (.encode frame kinds info)
  rw [← hcall, hfault] at hproduced
  exact hcalled.trans hproduced

instance (plan : Plan) : Decidable (Gated plan) := inferInstanceAs (Decidable (_ ∧ _))

/-- What a submission asks of the encoder before it asks about the frame: to
take the rates, unless it is held back for want of a target. -/
inductive Offered (s : Sender) (n : Nat) (plan : Plan) : List Event → Prop where
  | withheld (gated : Gated plan) : Offered s n plan []
  | offered (ungated : ¬ Gated plan) (fault : Option EncoderFault) :
      Offered s n plan (exchange n (.configure (s.seenRates plan.rates)) fault)

theorem offerRates_asks (s : Sender) (n : Nat) (plan : Plan) :
    ∃ offered, s.Offered n plan offered ∧ s.Asks (s.offerRates n plan) offered ∧
      (s.offerRates n plan).rate = s.rate ∧ (s.offerRates n plan).now = s.now := by
  by_cases hgate : Gated plan
  · have hcond : ¬ plan.internalSource ∧ plan.rates.targetBitrate = 0 := by
      simpa [Gated] using hgate
    have heq : s.offerRates n plan = s := by simp only [offerRates, applyRates, if_pos hcond]
    rw [heq]
    exact ⟨[], .withheld hgate, .refl s, rfl, rfl⟩
  · have hcond : ¬ (¬ plan.internalSource ∧ plan.rates.targetBitrate = 0) := by
      simpa [Gated] using hgate
    have hcall := s.asks_callEncoder n (.configure (s.seenRates plan.rates))
    refine ⟨_, .offered hgate
      (Rack.fault? (s.rack.call n (.configure (s.seenRates plan.rates))).2), ?_⟩
    have hrate : (s.callEncoder n (.configure (s.seenRates plan.rates))).1.rate = s.rate := rfl
    have hnow : (s.callEncoder n (.configure (s.seenRates plan.rates))).1.now = s.now := rfl
    simp only [offerRates, applyRates, if_neg hcond]
    cases hresult : s.callEncoder n (.configure (s.seenRates plan.rates)) with
    | mk t result =>
        rw [hresult] at hcall hrate hnow
        cases result with
        | ok _ => exact ⟨hcall, hrate, hnow⟩
        | error fault => exact ⟨hcall.trans (t.asks_log _), hrate, hnow⟩

theorem readable_matches {slot : Handle} {frame f : Frame} (h : readable slot frame = .ok f) :
    f.Matches frame := by
  unfold readable at h
  split at h
  · unfold Frame.toPlanar at h
    split at h
    · obtain rfl := Except.ok.inj h
      exact ⟨rfl, rfl, rfl⟩
    · simp at h
  · obtain rfl := Except.ok.inj h
    exact ⟨rfl, rfl, rfl⟩

/-- The six ends of a submission once rate control has said whether to drop the
frame: the result, and what else was asked, the latest first. -/
inductive Ending (s : Sender) (slot : Handle) (frame : Frame) (info : Option SideInfo)
    (plan : Plan) (drop : Bool) : Except SendError Delivery → List Event → Prop where
  | gated (gated : Gated plan) :
      Ending s slot frame info plan drop (.ok .gated) (exchange slot.encoder .skip none)
  | dropped (ungated : ¬ Gated plan) (dropped : drop = true) :
      Ending s slot frame info plan drop (.ok .dropped) (exchange slot.encoder .skip none)
  | mismatched (ungated : ¬ Gated plan) (kept : drop = false)
      (mismatch : s.registry.accepts frame.resolution = false) :
      Ending s slot frame info plan drop
        (.error (.wrongResolution (s.codec.map (·.resolution)) frame.resolution)) []
  | unreadable {fault : CopyFault} (ungated : ¬ Gated plan) (kept : drop = false)
      (matching : s.registry.accepts frame.resolution = true)
      (failed : readable slot frame = .error fault) :
      Ending s slot frame info plan drop (.error (.notReadable fault)) []
  | failed {f : Frame} {fault : EncoderFault} {error : SendError} (ungated : ¬ Gated plan)
      (kept : drop = false) (matching : s.registry.accepts frame.resolution = true)
      (same : f.Matches frame) (own : error = .encoder fault) (code : error.code = fault.code) :
      Ending s slot frame info plan drop (.error error)
        (exchange slot.encoder (.encode f plan.schedule.kinds info) (some fault))
  | encoded {f : Frame} (ungated : ¬ Gated plan) (kept : drop = false)
      (matching : s.registry.accepts frame.resolution = true) (same : f.Matches frame) :
      Ending s slot frame info plan drop (.ok (.encoded plan.schedule.kinds))
        (exchange slot.encoder (.encode f plan.schedule.kinds info) none)

/-- The result of a submission, from what is there before anything is asked. -/
def verdict (s : Sender) (slot : Handle) (frame : Frame) (plan : Plan) :
    Except SendError Delivery :=
  if Gated plan then .ok .gated
  else if (s.rate.dropFrame s.now).2 then .ok .dropped
  else if ¬ s.registry.accepts frame.resolution then
    .error (.wrongResolution (s.codec.map (·.resolution)) frame.resolution)
  else
    match readable slot frame with
    | .error fault => .error (.notReadable fault)
    | .ok _ =>
        match (s.rack.encoder slot.encoder).faults.encode with
        | some fault => .error (.encoder fault)
        | none => .ok (.encoded plan.schedule.kinds)

theorem encodeReadable_ending (hs : s.callbacks.Silent) (n : Nat) (frame : Frame)
    (info : Option SideInfo) (plan : Plan) :
    ∃ mid fault, fault = (s.rack.encoder n).faults.encode ∧
      s.Asks mid (exchange n (.encode frame plan.schedule.kinds info) fault) ∧
      ((∃ f, fault = some f ∧ s.encodeReadable n frame info plan =
          (mid, .error (.encoder f))) ∨
        (fault = none ∧ s.encodeReadable n frame info plan =
          (mid.storeSchedule (mid.plan.schedule.clearSatisfied plan.schedule),
            .ok (.encoded plan.schedule.kinds)))) := by
  obtain ⟨hasks, hfault⟩ := callEncode_exchange hs n frame plan.schedule.kinds info
  unfold encodeReadable
  cases hcall : s.callEncode n frame plan.schedule.kinds info with
  | mk t result =>
      rw [← hfault, hcall] at hasks
      rw [hcall] at hfault
      cases result with
      | error fault =>
          exact ⟨t.log (.encodeFailed fault.code), some fault, hfault,
            hasks.trans (t.asks_log _), Or.inl ⟨fault, rfl, rfl⟩⟩
      | ok _ => exact ⟨t, none, hfault, hasks, Or.inr ⟨rfl, rfl⟩⟩

/-- From `s` a submission, which worked on `plan` with the encoder in `slot`,
came to `after`. -/
structure Submitted (s : Sender) (slot : Handle) (frame : Frame) (info : Option SideInfo)
    (plan : Plan) (after : Sender × Except SendError Delivery) : Prop where
  /-- The encoder is offered the rates, rate control is asked about the frame,
  and then comes one of the six ends. -/
  consulted : ∃ offered drop last new, s.Offered slot.encoder plan offered ∧
    s.Ending slot frame info plan drop after.2 last ∧
    after.1.rack.journal = new ++ s.rack.journal ∧
    consultations new = last ++ .rate (.drop drop) :: offered
  slot : after.1.slot = s.slot
  registry : after.1.registry = s.registry
  codec : after.1.codec = s.codec
  rates : after.1.plan.rates = s.plan.rates
  plan : (∀ kinds, after.2 ≠ .ok (.encoded kinds)) → after.1.plan = s.plan

theorem Asks.submitted {slot : Handle} {frame : Frame} {info : Option SideInfo} {plan : Plan}
    {offered last : List Event} {drop : Bool} {t : Sender} {result : Except SendError Delivery}
    (h : s.Asks t (.rate (.drop drop) :: offered)) (hoffered : s.Offered slot.encoder plan offered)
    (hlast : t.Asks s' last) (hending : s.Ending slot frame info plan drop result last) :
    s.Submitted slot frame info plan (s', result) := by
  have hasks := h.trans hlast
  obtain ⟨new, hjournal, hnew⟩ := hasks.journal
  exact ⟨⟨offered, drop, last, new, hoffered, hending, hjournal, hnew⟩, hasks.slot,
    hasks.registry, hasks.codec, by rw [hasks.plan], fun _ => hasks.plan⟩

/-- What a submission does with the encoder in the slot, and that its result
could be told beforehand. -/
theorem encodeOn_submitted (hs : s.callbacks.Silent) (slot : Handle) (frame : Frame)
    (info : Option SideInfo) (plan : Plan) :
    s.Submitted slot frame info plan (s.encodeOn slot frame info plan) ∧
      (s.encodeOn slot frame info plan).2 = s.verdict slot frame plan := by
  obtain ⟨offered, hoffered, hoffer, hrate, hnow⟩ := s.offerRates_asks slot.encoder plan
  have hfirst := hoffer.trans (asks_askDrop (s.offerRates slot.encoder plan))
  have hanswer : (s.offerRates slot.encoder plan).askDrop.2 = (s.rate.dropFrame s.now).2 := by
    rw [← hrate, ← hnow]
    rfl
  unfold encodeOn verdict
  cases hdrop : (s.offerRates slot.encoder plan).askDrop with
  | mk t drop =>
  rw [hdrop] at hfirst hanswer
  have hregistry : t.registry = s.registry := hfirst.registry
  have hcodec : t.codec = s.codec := hfirst.codec
  have hcond : (¬ plan.internalSource ∧ plan.rates.targetBitrate = 0) ↔ Gated plan := by
    simp [Gated]
  simp only [hcond, ← hanswer]
  by_cases hgate : Gated plan
  · simp only [if_pos hgate]
    exact ⟨hfirst.submitted hoffered ((t.asks_log _).trans (asks_skipFrame _ _)) (.gated hgate),
      trivial⟩
  simp only [if_neg hgate]
  cases drop with
  | true =>
      simp only [if_true]
      exact ⟨hfirst.submitted hoffered ((t.asks_log _).trans (asks_skipFrame _ _))
        (.dropped hgate rfl), trivial⟩
  | false =>
  simp only [Bool.false_eq_true, if_false, hregistry, hcodec]
  cases haccepts : s.registry.accepts frame.resolution with
  | false =>
      simp only [Bool.false_eq_true, not_false_eq_true, if_true]
      exact ⟨hfirst.submitted hoffered (t.asks_log _) (.mismatched hgate rfl haccepts), trivial⟩
  | true =>
  simp only [not_true_eq_false, if_false]
  cases hreadable : readable slot frame with
  | error fault =>
      exact ⟨hfirst.submitted hoffered (t.asks_log _) (.unreadable hgate rfl haccepts hreadable),
        rfl⟩
  | ok f =>
      have hmatches := readable_matches hreadable
      obtain ⟨mid, fault, hfault, hasks, hend⟩ :=
        encodeReadable_ending (hfirst.callbacks ▸ hs) slot.encoder f info plan
      rw [hfirst.faults] at hfault
      dsimp only
      rcases hend with ⟨fault, rfl, hend⟩ | ⟨rfl, hend⟩
      · rw [hend, ← hfault]
        exact ⟨hfirst.submitted hoffered hasks
          (.failed hgate rfl haccepts hmatches rfl rfl), rfl⟩
      · rw [hend, ← hfault]
        have hmid : s.Submitted slot frame info plan (mid, .ok (.encoded plan.schedule.kinds)) :=
          hfirst.submitted hoffered hasks (.encoded hgate rfl haccepts hmatches)
        exact ⟨⟨hmid.consulted, hmid.slot, hmid.registry, hmid.codec, hmid.rates,
          fun hnot => absurd rfl (hnot _)⟩, rfl⟩

/-- What a submission does to the plan: the kinds of an encode call that
succeeds are settled. -/
theorem encodeOn_plan (hs : s.callbacks.Silent) (slot : Handle) (frame : Frame)
    (info : Option SideInfo) (plan : Plan) :
    (s.encodeOn slot frame info plan).1.callbacks.Silent ∧
      (s.encodeOn slot frame info plan).1.plan.internalSource = s.plan.internalSource ∧
      ∀ kinds, (s.encodeOn slot frame info plan).2 = .ok (.encoded kinds) →
        (s.encodeOn slot frame info plan).1.plan.schedule =
          s.plan.schedule.clearSatisfied plan.schedule := by
  obtain ⟨mid, new, hmid, hend⟩ := s.encodeOn_end slot frame info plan
  obtain ⟨hsilent, hschedule⟩ := hmid.still hs
  rcases hend with ⟨hafter, hnot⟩ | ⟨hafter, _⟩
  · rw [hafter]
    exact ⟨hsilent, hmid.source, fun kinds hkinds => absurd hkinds (hnot kinds)⟩
  · rw [hafter]
    exact ⟨hsilent, hmid.source, fun _ _ =>
      congrArg (Schedule.clearSatisfied · plan.schedule) hschedule⟩

/-- From now on encoder `n` answers calls that hand it rates with `fault`. -/
def setRatesFault (s : Sender) (n : Nat) (fault : Option EncoderFault) : Sender :=
  { s with rack := s.rack.setFaults n { configure := some fault } }

theorem encode_setRatesFault (s : Sender) (n m : Nat) (fault : Option EncoderFault) :
    ((s.setRatesFault n fault).rack.encoder m).faults.encode =
      (s.rack.encoder m).faults.encode := by
  simp only [setRatesFault, Rack.setFaults, Rack.encoder_put]
  split
  · rename_i hm
    rw [hm.1]
    rfl
  · rfl

/-- Whether the encoder takes the rates makes no difference to the verdict. -/
theorem verdict_setRatesFault (s : Sender) (n : Nat) (fault : Option EncoderFault) (slot : Handle)
    (frame : Frame) (plan : Plan) :
    (s.setRatesFault n fault).verdict slot frame plan = s.verdict slot frame plan := by
  simp only [verdict, encode_setRatesFault]
  rfl

/-- A frame that has the codec's resolution stops the program in conversion only
if its sizes leave the 64-bit range. -/
theorem overflows_of_aborted (hs : s.Coherent) {slot : Handle} (hslot : s.slot = some slot)
    {frame : Frame} (haccepts : s.registry.accepts frame.resolution = true)
    (h : readable slot frame = .error .aborted) : frame.Overflows := by
  obtain ⟨codec, hcodec, hsend⟩ := hs.serving slot hslot
  have hwidth : frame.resolution.width ≠ 0 := by
    have hsame : codec.clamped.resolution = frame.resolution := by
      simpa [Registry.accepts, hsend] using haccepts
    have hvalid := hs.accepted codec hcodec
    intro hzero
    have hcodecWidth : codec.resolution.width = 0 := by
      rw [← hzero, ← hsame]
      rfl
    simp [Codec.fault?, hcodecWidth] at hvalid
  have hword : ∀ n : UInt32, FitsWord (n.toNat + 1) := by
    intro n
    have hlt := n.toNat_lt
    simp only [FitsWord, UInt64.size]
    omega
  unfold readable at h
  split at h
  · unfold Frame.toPlanar at h
    cases hpicture : frame.picture with
    | planar image => simp [hpicture, Picture.toPlanar] at h
    | unreadable resolution reasons => simp [hpicture, Picture.toPlanar] at h
    | mapped resolution data layout =>
        refine ⟨resolution, data, layout, hpicture, ?_⟩
        rintro ⟨hframe, hsource⟩
        have hpositive : resolution.width.toNat ≠ 0 := by
          rw [Frame.resolution, hpicture, Picture.resolution] at hwidth
          simpa [← UInt32.toNat_inj] using hwidth
        have hfits : FrameFits resolution.width.toNat resolution.height.toNat :=
          ⟨hword _, hword _, hframe⟩
        have hnever := deinterleave_ne_aborted data
          (Array.replicate resolution.packedSize 0) hfits hsource hpositive
        simp only [hpicture, Picture.toPlanar, hfits, not_true_eq_false, if_false] at h
        generalize deinterleave data _ _ _ _ = conversion at h hnever
        cases conversion <;> simp_all
  · simp at h

/-- All there is to know of a submission to an encoder. -/
theorem submit_ends (hs : s.Coherent) (hsilent : s.callbacks.Silent) {slot : Handle}
    (hslot : s.slot = some slot) (frame : Frame) (info : Option SideInfo) :
    s.Submitted slot frame info s.plan (s.submit frame info) ∧
      (∀ fault, ((s.setRatesFault slot.encoder fault).submit frame info).2 =
        (s.submit frame info).2) ∧
      ((s.submit frame info).2 = .error (.notReadable .aborted) → frame.Overflows) := by
  have hsubmit : ∀ {t : Sender}, t.slot = some slot →
      t.submit frame info = t.encodeOn slot frame info t.plan := by
    intro t ht
    rw [submit, t.encode_of_slot ht, currentPlan, if_pos rfl]
  obtain ⟨hsubmitted, hverdict⟩ := encodeOn_submitted hsilent slot frame info s.plan
  rw [hsubmit hslot]
  refine ⟨hsubmitted, ?_, ?_⟩
  · intro fault
    have hother := (encodeOn_submitted (s := s.setRatesFault slot.encoder fault) hsilent slot
      frame info s.plan).2
    rw [hsubmit (t := s.setRatesFault slot.encoder fault) hslot, hverdict]
    exact hother.trans (s.verdict_setRatesFault _ _ _ _ _)
  · intro haborted
    obtain ⟨offered, drop, last, new, _, hending, _⟩ := hsubmitted.consulted
    rw [haborted] at hending
    cases hending with
    | unreadable ungated kept matching failed =>
        exact overflows_of_aborted hs hslot matching failed
    | failed ungated kept matching same own code => simp at own

theorem begin_silent (hs : s.callbacks.Silent) (c : Call) : (s.begin c).1.callbacks.Silent := by
  rcases s.begin_cases c with ⟨i, _, hmarked⟩ | ⟨_, new, hbegin⟩
  · rw [hmarked]
    exact hs
  · exact (hbegin.silent hs).1

theorem encode_silent (hs : s.callbacks.Silent) (frame : Frame) (info : Option SideInfo)
    (copy : Plan) : (s.encode frame info copy).1.callbacks.Silent := by
  cases hslot : s.slot with
  | none =>
      have heq : (s.encode frame info copy).1 = s := by simp [encode, hslot]
      rwa [heq]
  | some slot =>
      rw [s.encode_of_slot hslot]
      obtain ⟨mid, new, hmid, hend⟩ := s.encodeOn_end slot frame info (s.currentPlan copy)
      have hsilent := (hmid.silent hs).1
      rcases hend with ⟨hafter, _⟩ | ⟨hafter, _⟩
      · rwa [hafter]
      · rw [hafter]
        exact hsilent

theorem pullKey_silent (hs : s.callbacks.Silent) (stream : Nat) :
    (s.pullKey stream).1.callbacks.Silent := by
  rcases s.pullKey_end stream with
    heq | ⟨slot, mid, new, _, _, _, ⟨hmid, heq⟩ | ⟨hmid, heq, _⟩⟩
  · rwa [heq]
  · rw [heq]
    exact (hmid.silent hs).1
  · rw [heq]
    exact (hmid.silent hs).1

theorem pushRates_silent (hs : s.callbacks.Silent) (rates : RateParameters) :
    (s.pushRates rates).1.callbacks.Silent := by
  rcases s.pushRates_end rates with ⟨_, heq⟩ | ⟨slot, new, _, hpush⟩
  · rwa [heq]
  · exact (hpush.silent hs).1

theorem runStage_silent (hs : s.callbacks.Silent) (stage : EncoderStage) :
    (s.runStage stage).1.callbacks.Silent := by
  cases stage with
  | encode frame info copy => exact encode_silent hs frame info copy
  | pullKey stream => exact pullKey_silent hs stream
  | pushRates rates => exact pushRates_silent hs rates
  | register codec cores maxPayload =>
      exact (s.register_callbacks codec cores maxPayload).symm ▸ hs
  | attach payloadType internalSource choice =>
      exact (s.attach_callbacks payloadType internalSource choice).symm ▸ hs
  | detach payloadType => exact (s.detach_callbacks payloadType).symm ▸ hs
  | enableDropping on => exact hs

theorem finish_silent (hs : s.callbacks.Silent) (progress : Progress) :
    (s.finish progress).1.callbacks.Silent := by
  cases progress with
  | waits stage => exact runStage_silent hs stage
  | finished reply => exact hs

theorem act_silent (hs : s.callbacks.Silent) (a : Action) : (s.act a).1.callbacks.Silent := by
  by_cases hcall : ∃ c, a = .call c
  · obtain ⟨c, rfl⟩ := hcall
    exact finish_silent (begin_silent hs c) (s.begin c).2
  · obtain ⟨new, hact⟩ := s.actInside_interval a fun i ha => hcall ⟨_, ha⟩
    rw [s.act_eq_actInside fun c hc => hcall ⟨c, hc⟩]
    exact (hact.silent hs).1

end Sender

/-- How a submission comes out. -/
abbrev Verdict := Except SendError Delivery

namespace Verdict

def foundNoEncoder : Verdict → Bool
  | .error .uninitialized => true
  | _ => false

def heldBack : Verdict → Bool
  | .ok .gated | .ok .dropped => true
  | _ => false

def mismatched : Verdict → Bool
  | .error (.wrongResolution _ _) => true
  | _ => false

def unconverted : Verdict → Bool
  | .error (.notReadable _) => true
  | _ => false

def handedOver : Verdict → Bool
  | .ok (.encoded _) | .error (.encoder _) => true
  | _ => false

end Verdict

/-- Verdicts and the journal of the time they are from tell the same story:
encoders were told of the frames that were held back, they got those that were
handed over, and together with what was turned down these are all. -/
structure Accounted (verdicts : List Verdict) (journal : List Event) : Prop where
  skips : skipCalls journal = verdicts.countP Verdict.heldBack
  encodes : encodeCalls journal = verdicts.countP Verdict.handedOver
  total : verdicts.length = verdicts.countP Verdict.foundNoEncoder + skipCalls journal +
    verdicts.countP Verdict.mismatched + verdicts.countP Verdict.unconverted +
    encodeCalls journal

theorem Accounted.append {verdicts more : List Verdict} {old new : List Event}
    (h : Accounted verdicts old) (h' : Accounted more new) :
    Accounted (more ++ verdicts) (new ++ old) where
  skips := by rw [skipCalls_append, List.countP_append, h.skips, h'.skips]
  encodes := by rw [encodeCalls_append, List.countP_append, h.encodes, h'.encodes]
  total := by
    have htotal := h.total
    have htotal' := h'.total
    simp only [skipCalls_append, encodeCalls_append, List.countP_append, List.length_append]
    omega

/-- Where nothing was submitted and no frame passed, there is nothing to
account for. -/
theorem Accounted.of_none {new : List Event} (hskips : skipCalls new = 0)
    (hencodes : encodeCalls new = 0) : Accounted [] new :=
  ⟨hskips, hencodes, by simp [hskips, hencodes]⟩

namespace Sender

variable {s : Sender}

theorem Submitted.accounted {slot : Handle} {frame : Frame} {info : Option SideInfo} {plan : Plan}
    {after : Sender × Verdict} (h : s.Submitted slot frame info plan after) :
    ∃ new, after.1.rack.journal = new ++ s.rack.journal ∧ Accounted [after.2] new := by
  obtain ⟨offered, drop, last, new, hoffered, hending, hjournal, hnew⟩ := h.consulted
  refine ⟨new, hjournal, ?_⟩
  -- Rates are offered by a call that is neither to encode nor to skip a frame.
  have hfirst : skipCalls (.rate (.drop drop) :: offered) = 0 ∧
      encodeCalls (.rate (.drop drop) :: offered) = 0 := by
    cases hoffered <;> exact ⟨rfl, rfl⟩
  have hskips : skipCalls new = skipCalls last := by
    rw [← skipCalls_consultations, hnew, skipCalls_append, hfirst.1, Nat.add_zero]
  have hencodes : encodeCalls new = encodeCalls last := by
    rw [← encodeCalls_consultations, hnew, encodeCalls_append, hfirst.2, Nat.add_zero]
  generalize after.2 = verdict at hending
  cases hending with
  | failed ungated kept matching same own code =>
      subst own
      exact ⟨hskips, hencodes, by rw [hskips, hencodes]; rfl⟩
  | _ => exact ⟨hskips, hencodes, by rw [hskips, hencodes]; rfl⟩

/-- Every submission, with an encoder or without, is accounted for. -/
theorem encode_accounted (hs : s.callbacks.Silent) (frame : Frame) (info : Option SideInfo)
    (copy : Plan) :
    ∃ new, (s.encode frame info copy).1.rack.journal = new ++ s.rack.journal ∧
      Accounted [(s.encode frame info copy).2] new := by
  cases hslot : s.slot with
  | none =>
      have heq : s.encode frame info copy = (s, .error .uninitialized) := by simp [encode, hslot]
      rw [heq]
      exact ⟨[], rfl, rfl, rfl, rfl⟩
  | some slot =>
      rw [s.encode_of_slot hslot]
      exact (encodeOn_submitted hs slot frame info (s.currentPlan copy)).1.accounted

end Sender

end Simulcast
