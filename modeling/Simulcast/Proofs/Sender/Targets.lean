import Mathlib.Data.List.Basic
import Simulcast.Proofs.Journal.Targets
import Simulcast.Proofs.Sender.Coherent

/-!
The target bitrates that encoders are handed. A regulator cuts what the network
reports to the maximum of the codec registered at that moment, and the result
stays in the plan until the network is heard of again. Registering a codec does
not cut it once more. So an encoder is handed more than its codec allows
exactly if the codec was registered after the last report, and the codec before
it allowed more.
-/

namespace Simulcast

namespace Sender

variable {s s' : Sender}

/-- A regulator that knows of no codec, in a sender that has not heard of the
network. -/
structure Unheard (s : Sender) : Prop where
  maximum : s.rate.maximum? = some 0
  target : s.plan.rates.targetBitrate = 0
  entries : ∀ e ∈ s.rack.journal, e.Mute

/-- The regulator's maximum is that of the codec registered last, and the
target in the plan is the one heard last, as was every target handed over. -/
structure Attuned (s : Sender) : Prop where
  maximum : s.rate.maximum? = some (ceiling s.rack.journal)
  target : s.plan.rates.targetBitrate = heardTarget s.rack.journal
  handed : Handed s.rack.journal

theorem start_unheard (o : SenderOptions) (now : Millis) (h : o.rate.maximum? = some 0) :
    (start o now).Unheard := by
  unfold start
  cases o.dropping with
  | none => exact ⟨h, rfl, by simp⟩
  | some on =>
      refine ⟨(o.rate.maximum?_enableDropping on).trans h, rfl, ?_⟩
      simp [tellDropping, note, Rack.note, Event.Mute]

theorem Unheard.attuned (h : s.Unheard) : s.Attuned := by
  have hregistered : ceiling s.rack.journal = 0 := by
    rw [← List.append_nil s.rack.journal, ceiling_append (registrations_of_mute h.entries)]
    rfl
  have hheard : heardTarget s.rack.journal = 0 :=
    heardTarget_of_unheard fun e he => (h.entries e he).isFed
  refine ⟨h.maximum.trans (congrArg some hregistered.symm), h.target.trans hheard.symm, ?_⟩
  rintro newer n rates older heq
  exact absurd rfl ((h.entries _ (by simp [heq])).ne_configure n rates)

/-- Nothing was said of codecs or targets between `s` and `s'`. -/
theorem Attuned.of_mute (h : s.Attuned) (new : List Event)
    (hmaximum : s'.rate.maximum? = s.rate.maximum?)
    (htarget : s'.plan.rates.targetBitrate = s.plan.rates.targetBitrate)
    (hjournal : s'.rack.journal = new ++ s.rack.journal) (hnew : ∀ e ∈ new, e.Mute) :
    s'.Attuned where
  maximum := by
    rw [hmaximum, h.maximum, hjournal, ceiling_append (registrations_of_mute hnew)]
  target := by
    rw [htarget, h.target, hjournal, heardTarget_append fun e he => (hnew e he).isFed]
  handed := by
    rw [hjournal]
    exact h.handed.append hnew

theorem Attuned.of_eq (h : s.Attuned) (hmaximum : s'.rate.maximum? = s.rate.maximum?)
    (htarget : s'.plan.rates.targetBitrate = s.plan.rates.targetBitrate)
    (hjournal : s'.rack.journal = s.rack.journal) : s'.Attuned :=
  h.of_mute [] hmaximum htarget hjournal (by simp)

theorem Attuned.note (h : s.Attuned) (e : Event) (he : e.Mute) : (s.note e).Attuned :=
  h.of_mute [e] rfl rfl rfl (by simpa using he)

/-- Rate control is asked for something else than a target. -/
theorem Attuned.ask (h : s.Attuned) {rate : RateController} (c : RateCall)
    (hmaximum : rate.maximum? = s.rate.maximum?) (hc : (Event.rate c).Mute) :
    ({ s with rate := rate }.note (.rate c)).Attuned := by
  have hset : ({ s with rate := rate } : Sender).Attuned := h.of_eq hmaximum rfl rfl
  exact hset.note (.rate c) hc

theorem Attuned.report (h : s.Attuned) : s.report.1.Attuned := by
  unfold Sender.report
  split
  · have hbitrate : s.askSentBitrate.1.Attuned :=
      h.ask _ (s.rate.maximum?_sentBitrate s.now) trivial
    have hframes : s.askSentBitrate.1.askSentFrameRate.1.Attuned :=
      hbitrate.ask _ (RateController.maximum?_sentFrameRate _ _) trivial
    exact hframes.note (.statistics _ _) trivial
  · exact h

theorem Attuned.askFrameRate (h : s.Attuned) : s.askFrameRate.1.Attuned :=
  h.ask _ (s.rate.maximum?_frameRate s.now) trivial

theorem Attuned.tick (h : s.Attuned) : s.tick.1.Attuned := by
  have hreport : (if s.untilDue = 0 then { s with timer := s.timer.restart s.now }.report
      else (s, none)).1.Attuned := by
    split
    · have hrestarted : ({ s with timer := s.timer.restart s.now } : Sender).Attuned :=
        h.of_eq rfl rfl rfl
      exact hrestarted.report
    · exact h
  exact hreport.askFrameRate.of_eq rfl rfl rfl

/-- The network is heard of: a regulator that holds targets at the right
maximum gives the target that goes into the plan. -/
theorem Attuned.feedback (h : s.Attuned) (report : Feedback) :
    (s.begin (.feedback report)).1.Attuned where
  maximum := by
    show ((s.rate.feed report.bitrate report.lossRate report.roundTrip).1.frameRate
      s.now).1.maximum? = _
    rw [RateController.maximum?_frameRate, RateController.maximum?_feed, h.maximum]
    rfl
  target := s.rate.feed_target h.maximum _ _ _
  handed := (h.handed.cons (by simp)).cons (by simp)

theorem Attuned.begin (h : s.Attuned) (c : Call) : (s.begin c).1.Attuned := by
  cases c with
  | requestKey stream =>
      simp only [Sender.begin, markKey]
      split
      · exact h
      · exact h.of_eq rfl rfl rfl
  | feedback report => exact h.feedback report
  | _ => exact h

/-- Calls that only begin in a callback get as far as the plan. -/
theorem Attuned.actInside (h : s.Attuned) (a : Action) : (s.actInside a).1.Attuned := by
  cases a with
  | call c =>
      simp only [Sender.actInside]
      have hbegun := h.begin c
      split <;> rename_i heq <;> rw [heq] at hbegun <;> exact hbegun
  | tick => exact h.tick
  | setFaults n patch =>
      simp only [Sender.actInside]
      split
      · exact h.of_eq rfl rfl rfl
      · exact h
  | setScript patch => exact h.of_eq (by simp [Sender.actInside]) rfl rfl
  | _ => exact h.of_eq rfl rfl rfl

theorem Attuned.followInside (h : s.Attuned) (i : Instruction) : (s.followInside i).1.Attuned := by
  cases i with
  | act a => exact h.actInside a
  | onEncode n instructions =>
      simp only [Sender.followInside, setOnEncode]
      split
      · exact h.of_eq rfl rfl rfl
      · exact h
  | onImage instructions => exact h.of_eq rfl rfl rfl

theorem Attuned.runCallback (h : s.Attuned) (instructions : List Instruction) :
    (s.runCallback instructions).Attuned := by
  induction instructions generalizing s with
  | nil => exact h
  | cons i rest ih => exact ih ((h.followInside i).note (.nested i _) trivial)

/-- An encoder may be handed the target heard last, and called otherwise at
will. -/
theorem Attuned.called (h : s.Attuned) {n : Nat} {c : EncoderCall}
    (hc : ∀ rates, c = .configure rates → rates.targetBitrate = s.plan.rates.targetBitrate) :
    (s.note (.called n c)).Attuned where
  maximum := h.maximum
  target := h.target
  handed := by
    refine h.handed.cons ?_
    rintro n rates heq
    rw [← h.target]
    exact hc rates (Event.called.inj heq).2

theorem Attuned.callEncoder (h : s.Attuned) (n : Nat) {c : EncoderCall}
    (hc : ∀ rates, c = .configure rates → rates.targetBitrate = s.plan.rates.targetBitrate) :
    (s.callEncoder n c).1.Attuned :=
  (h.called hc).of_mute [.answered n c (Rack.fault? (s.rack.call n c).2)] rfl rfl rfl
    (by simp [Event.Mute])

theorem Attuned.deliver (h : s.Attuned) (image : EncodedImage) : (s.deliver image).Attuned := by
  have haccounted : (s.account image).Attuned :=
    h.ask _ (s.rate.maximum?_account s.now image) trivial
  exact (haccounted.note (.image image) trivial).runCallback _

theorem Attuned.deliverAll (h : s.Attuned) (images : List EncodedImage) :
    (images.foldl Sender.deliver s).Attuned := by
  induction images generalizing s with
  | nil => exact h
  | cons image rest ih => exact ih (h.deliver image)

theorem Attuned.produce (h : s.Attuned) (n : Nat) (c : EncoderCall) :
    (s.produce n c).1.Attuned := by
  have hperformed : ({ s with rack := (s.rack.perform n c).1 } : Sender).Attuned :=
    h.of_eq rfl rfl rfl
  simp only [Sender.produce]
  split
  · exact (hperformed.deliverAll _).note (.answered n c none) trivial
  · exact hperformed.note (.answered n c (some _)) trivial

theorem Attuned.interrupt (h : s.Attuned) (n : Nat) : (s.interrupt n).Attuned := by
  unfold Sender.interrupt
  split
  · exact h
  · exact (h.runCallback _).of_eq rfl rfl rfl

theorem Attuned.callEncode (h : s.Attuned) (n : Nat) (frame : Frame) (kinds : List FrameKind)
    (info : Option SideInfo) : (s.callEncode n frame kinds info).1.Attuned :=
  ((h.called (by simp)).interrupt n).produce n _

theorem Attuned.callRequest (h : s.Attuned) (n : Nat) (kinds : List FrameKind) :
    (s.callRequest n kinds).1.Attuned :=
  (h.called (by simp)).produce n _

theorem Attuned.skipFrame (h : s.Attuned) (n : Nat) : (s.skipFrame n).Attuned :=
  h.callEncoder n (by simp)

theorem Attuned.applyRates (h : s.Attuned) (n : Nat) {rates : RateParameters}
    (hrates : rates.targetBitrate = s.plan.rates.targetBitrate) (internalSource : Bool) :
    (s.applyRates n rates internalSource).1.Attuned := by
  unfold Sender.applyRates
  split
  · exact h
  · refine h.callEncoder n fun given hgiven => ?_
    rw [← EncoderCall.configure.inj hgiven, seenRates_targetBitrate, hrates]

theorem Attuned.offerRates (h : s.Attuned) (n : Nat) : (s.offerRates n s.plan).Attuned := by
  have happlied := h.applyRates n rfl s.plan.internalSource
  unfold Sender.offerRates
  split <;> rename_i heq <;> rw [heq] at happlied
  · exact happlied
  · exact happlied.note (.log (.ratesRejected _)) trivial

theorem Attuned.encodeReadable (h : s.Attuned) (n : Nat) (frame : Frame)
    (info : Option SideInfo) (plan : Plan) : (s.encodeReadable n frame info plan).1.Attuned := by
  have hcalled := h.callEncode n frame plan.schedule.kinds info
  unfold Sender.encodeReadable
  split <;> rename_i heq <;> rw [heq] at hcalled
  · exact hcalled.note (.log (.encodeFailed _)) trivial
  · exact hcalled.of_eq rfl rfl rfl

theorem Attuned.encodeOn (h : s.Attuned) (slot : Handle) (frame : Frame)
    (info : Option SideInfo) : (s.encodeOn slot frame info s.plan).1.Attuned := by
  have hasked : (s.offerRates slot.encoder s.plan).askDrop.1.Attuned :=
    (h.offerRates slot.encoder).ask _ (RateController.maximum?_dropFrame _ _) trivial
  simp only [Sender.encodeOn]
  split
  · exact (hasked.note (.log (.gated _)) trivial).skipFrame slot.encoder
  · split
    · exact (hasked.note (.log (.dropped _)) trivial).skipFrame slot.encoder
    · split
      · exact hasked.note (.log .wrongResolution) trivial
      · split
        · exact hasked.note (.log (.notReadable _)) trivial
        · exact hasked.encodeReadable slot.encoder _ info s.plan

/-- A submission that works on the plan as it is. -/
theorem Attuned.encode (h : s.Attuned) (frame : Frame) (info : Option SideInfo) :
    (s.encode frame info s.plan).1.Attuned := by
  unfold Sender.encode
  split
  · exact h
  · rw [currentPlan, if_pos rfl]
    exact h.encodeOn _ frame info

theorem Attuned.settleKey (h : s.Attuned) (stream : Nat) (asked : Schedule) :
    (s.settleKey stream asked).1.Attuned := by
  unfold Sender.settleKey
  split
  · split
    · exact h.of_eq rfl rfl rfl
    · exact h
  · exact h

theorem Attuned.pullKey (h : s.Attuned) (stream : Nat) : (s.pullKey stream).1.Attuned := by
  unfold Sender.pullKey
  split
  · exact h
  · split
    · exact h
    · rename_i slot _
      split
      · have hcalled := h.callRequest slot.encoder s.plan.schedule.kinds
        dsimp only
        split <;> rename_i heq <;> rw [heq] at hcalled
        · exact hcalled.note (.log (.keyRequestFailed _ _)) trivial
        · exact hcalled.settleKey stream _
      · exact h

theorem Attuned.pushRates (h : s.Attuned) {rates : RateParameters}
    (hrates : rates.targetBitrate = s.plan.rates.targetBitrate) :
    (s.pushRates rates).1.Attuned := by
  unfold Sender.pushRates
  split
  · exact h
  · rename_i slot _
    have happlied := h.applyRates slot.encoder hrates true
    split <;> rename_i heq <;> rw [heq] at happlied <;> exact happlied

/-- The regulator is given the new maximum. The target in the plan stays. -/
theorem Attuned.of_registered (h : s.Attuned) (codec : Codec) (maxPayload : Nat)
    {limits : EncodingLimits}
    (hmaximum : s'.rate.maximum? = some (bitsPerSecond codec.maxBitrate))
    (hrates : s'.plan.rates = s.plan.rates)
    (hjournal : s'.rack.journal =
      .rate (.configured limits) :: .log (.registered codec maxPayload) :: s.rack.journal) :
    s'.Attuned where
  maximum := by
    rw [hmaximum, hjournal]
    rfl
  target := by
    rw [hrates, h.target, hjournal]
    rfl
  handed := by
    rw [hjournal]
    exact (h.handed.cons (by simp)).cons (by simp)

theorem Attuned.adopt (h : s.Attuned) (codec : Codec) (maxPayload : Nat) (handle : Handle) :
    (s.adopt codec maxPayload handle).Attuned := by
  have htold : (s.tellDropping (s.mayDrop codec)).Attuned :=
    h.ask _ (s.rate.maximum?_enableDropping _) trivial
  have hmaximum : ((s.tellDropping (s.mayDrop codec)).rate.configure
      (codec.limits maxPayload)).maximum? = some (bitsPerSecond codec.maxBitrate) := by
    rw [RateController.maximum?_configure, htold.maximum]
    rfl
  unfold Sender.adopt configureRate
  dsimp only
  split
  · refine Attuned.note ?_ (.log (.limited _)) trivial
    exact htold.of_registered codec maxPayload hmaximum rfl rfl
  · exact htold.of_registered codec maxPayload hmaximum rfl rfl

theorem Attuned.register (h : s.Attuned) (codec : Codec) (cores : UInt32) (maxPayload : Nat) :
    (s.register codec cores maxPayload).1.Attuned := by
  have hasked : (s.askRegistry codec cores maxPayload).1.Attuned := by
    unfold askRegistry
    split
    · exact h.of_eq rfl rfl rfl
    · obtain ⟨new, hjournal, hnew⟩ :=
        (s.registry.register_registers s.rack codec cores maxPayload).journal
      exact h.of_mute new rfl rfl hjournal fun e he => (hnew e he).mute
  unfold Sender.register
  split
  · exact h
  · split <;> rename_i heq <;> rw [heq] at hasked
    · exact hasked.adopt codec maxPayload _
    · exact (hasked.note (.log (.registrationFailed codec _)) trivial).of_eq rfl rfl rfl

theorem Attuned.attach (h : s.Attuned) (payloadType : UInt8) (internalSource : Bool)
    (choice : EncoderChoice) : (s.attach payloadType internalSource choice).1.Attuned := by
  unfold Sender.attach
  split
  · exact h
  · rename_i rack n hchoice
    exact h.of_eq rfl rfl (Rack.choose_setup hchoice).2.1

theorem Attuned.detach (h : s.Attuned) (payloadType : UInt8) :
    (s.detach payloadType).1.Attuned := by
  obtain ⟨new, hjournal, hnew⟩ := (s.registry.detach_detaches s.rack payloadType).journal
  have hmute : ∀ e ∈ new, e.Mute := fun e he => (hnew e he).mute
  simp only [Sender.detach]
  split <;> exact h.of_mute new rfl rfl hjournal hmute

theorem Attuned.call (h : s.Attuned) (c : Call) : (s.call c).1.Attuned := by
  cases c with
  | submit frame info => exact h.encode frame info
  | requestKey stream =>
      simp only [Sender.call, Sender.begin, markKey]
      split
      · exact h
      · rename_i schedule _
        have hstored : (s.storeSchedule schedule).Attuned := h.of_eq rfl rfl rfl
        dsimp only
        split
        · exact hstored.pullKey stream
        · exact hstored
  | feedback report =>
      have hheard := h.feedback report
      simp only [Sender.call, Sender.begin, keepRates] at hheard ⊢
      split
      · exact hheard.pushRates rfl
      · exact hheard
  | register codec cores maxPayload => exact h.register codec cores maxPayload
  | attach payloadType internalSource choice => exact h.attach payloadType internalSource choice
  | detach payloadType => exact h.detach payloadType
  | enableDropping on =>
      have hwished : ({ s with dropping := some on } : Sender).Attuned := h.of_eq rfl rfl rfl
      exact hwished.ask (.dropping on) (s.rate.maximum?_enableDropping on) trivial

theorem Attuned.act (h : s.Attuned) (a : Action) : (s.act a).1.Attuned := by
  cases a with
  | call c => exact h.call c
  | _ => exact h.actInside _

theorem run_attuned (h : s.Attuned) (actions : List Action) : (s.run actions).Attuned := by
  induction actions generalizing s with
  | nil => exact h
  | cons a rest ih => exact ih (h.act a)

/-- Over a run of a sender with a regulator, whatever is done in callbacks: the
target handed to an encoder is what the network reported last, cut to what was
allowed then. It is above the maximum of the codec registered at the time of
the call exactly if the report is older than the codec and more was allowed
then. -/
theorem handed_target_exceeds_iff (hs : s.Unheard) (actions : List Action)
    {newer older : List Event} {n : Nat} {rates : RateParameters} {codec : Codec}
    (hcalled : (s.run actions).rack.journal = newer ++ .called n (.configure rates) :: older)
    (hcodec : lastRegistered? older = some codec) (hmax : 0 < codec.maxBitrate) :
    rates.targetBitrate = heardTarget older ∧
      (bitsPerSecond codec.maxBitrate < rates.targetBitrate ↔
        Outdated older (bitsPerSecond codec.maxBitrate)) := by
  have htarget := (run_attuned hs.attuned actions).handed newer n rates older hcalled
  rw [htarget]
  exact ⟨rfl, heardTarget_exceeds_iff hcodec hmax⟩

/-- A sender with a regulator that drops nothing, for worked runs. -/
def governed : Sender := start { dropping := some false, blueprints := fun _ => some {} } 0

theorem governed_unheard : governed.Unheard := start_unheard _ _ rfl

/-- A codec for worked runs that allows half a megabit per second. -/
def modestCodec : Codec := { sampleCodec 1 with maxBitrate := 500 }

/-- The network reports more than the second of two codecs allows, but it does
so before that one is registered. -/
def lowered : List Action :=
  [sampleRegistration 1, .call (.feedback ⟨1500000, 0, 50⟩),
    .call (.register modestCodec 1 1200), .call (.submit sampleFrame none)]

/-- The encoder of the second codec is handed the target of the first. -/
theorem handed_target_above_maximum :
    ∃ newer older, (governed.run lowered).rack.journal =
        newer ++ .called 1 (.configure ⟨1500000, 0, 50, 30⟩) :: older ∧
      lastRegistered? older = some modestCodec ∧
      bitsPerSecond modestCodec.maxBitrate = 500000 :=
  ⟨(governed.run lowered).rack.journal.take 6, (governed.run lowered).rack.journal.drop 7,
    by decide +kernel, by decide +kernel, by decide⟩

/-- What is above the maximum there was outdated. -/
theorem handed_target_exceeds_iff_lowered :
    ∃ newer older, (governed.run lowered).rack.journal =
        newer ++ .called 1 (.configure ⟨1500000, 0, 50, 30⟩) :: older ∧
      lastRegistered? older = some modestCodec ∧
      Outdated older (bitsPerSecond modestCodec.maxBitrate) := by
  have hcalled : (governed.run lowered).rack.journal =
      (governed.run lowered).rack.journal.take 6 ++
        .called 1 (.configure ⟨1500000, 0, 50, 30⟩) ::
          (governed.run lowered).rack.journal.drop 7 := by
    decide +kernel
  have hcodec : lastRegistered? ((governed.run lowered).rack.journal.drop 7) =
      some modestCodec := by
    decide +kernel
  obtain ⟨_, hexceeds⟩ :=
    handed_target_exceeds_iff governed_unheard lowered hcalled hcodec (by decide)
  exact ⟨_, _, hcalled, hcodec, hexceeds.mp (by decide)⟩

end Sender

end Simulcast
