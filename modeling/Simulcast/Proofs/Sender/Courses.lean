import Simulcast.Proofs.Sender.SmallSteps

/-!
What happens while a call has the encoder. Callbacks may do anything that can
be done inside them, one instruction at a time and each with an entry that says
so. All other steps are calm: they leave the clock, the timer and the rates of
the plan alone, and neither estimate the frame rate nor report statistics. So
whatever is said of these is said of whole sections by looking at single
instructions.
-/

namespace Simulcast

/-- An entry that is no report of the network, no estimate of the frame rate and
no statistics, and does not say that an instruction was followed. -/
def Event.Calm : Event → Prop
  | .rate (.fed _ _ _ _) | .rate (.frameRate _) | .statistics _ _ | .nested _ _ => False
  | _ => True

theorem Event.ByRegistry.calm {e : Event} (h : e.ByRegistry) : e.Calm := by
  cases e <;> trivial

namespace Sender

variable {s s' : Sender}

/-- From `s` to `s'` no time goes by, and neither rates nor statistics are
touched. -/
structure Calm (s s' : Sender) : Prop where
  now : s'.now = s.now
  timer : s'.timer = s.timer
  reportsStatistics : s'.reportsStatistics = s.reportsStatistics
  rates : s'.plan.rates = s.plan.rates
  journal : ∃ new, s'.rack.journal = new ++ s.rack.journal ∧ ∀ e ∈ new, e.Calm

theorem Calm.refl (s : Sender) : s.Calm s :=
  ⟨rfl, rfl, rfl, rfl, [], rfl, List.forall_mem_nil _⟩

theorem calm_note (s : Sender) {e : Event} (h : e.Calm) : s.Calm (s.note e) :=
  ⟨rfl, rfl, rfl, rfl, [e], rfl, List.forall_mem_singleton.2 h⟩

/-- Following an instruction of a callback, the entry that says so included. -/
def followNoted (s : Sender) (i : Instruction) : Sender :=
  (s.followInside i).1.note (.nested i (s.followInside i).2)

/-- The least that happens while a call has the encoder. -/
inductive Turn (s : Sender) : Sender → Prop where
  | step {s' : Sender} (h : s.SmallStep s') (calm : s.Calm s') : Turn s s'
  | inside (i : Instruction) : Turn s (s.followNoted i)

/-- From one sender to another while a call has the encoder. -/
abbrev Course : Sender → Sender → Prop := Relation.ReflTransGen Turn

theorem Turn.steps (h : s.Turn s') : s.Steps s' := by
  cases h with
  | step h _ => exact .single h
  | inside i => exact (s.followInside_steps i).tail (.noted (.nested i _) trivial)

theorem Course.steps (h : s.Course s') : s.Steps s' := by
  induction h with
  | refl => exact .refl
  | tail _ hturn ih => exact ih.trans hturn.steps

theorem turn_note (s : Sender) {e : Event} (h : e.Plain ∧ e.Calm) : s.Turn (s.note e) :=
  .step (.noted e h.1) (s.calm_note h.2)

theorem turn_askDrop (s : Sender) : s.Turn s.askDrop.1 :=
  .step (.asked .drop)
    ⟨rfl, rfl, rfl, rfl, [.rate (.drop _)], rfl, List.forall_mem_singleton.2 trivial⟩

theorem turn_account (s : Sender) (image : EncodedImage) : s.Turn (s.account image) :=
  .step (.asked (.accounted image))
    ⟨rfl, rfl, rfl, rfl, [.rate (.accounted image)], rfl, List.forall_mem_singleton.2 trivial⟩

theorem turn_storeSchedule (s : Sender) (schedule : Schedule) :
    s.Turn (s.storeSchedule schedule) :=
  .step (.scheduled schedule) ⟨rfl, rfl, rfl, rfl, [], rfl, List.forall_mem_nil _⟩

theorem turn_seat (s : Sender) (slot : Option Handle) (internalSource : Bool) :
    s.Turn ({ s with slot := slot }.storeSource internalSource) :=
  .step (.seated slot internalSource) ⟨rfl, rfl, rfl, rfl, [], rfl, List.forall_mem_nil _⟩

theorem turn_perform (s : Sender) (n : Nat) (c : EncoderCall) :
    s.Turn { s with rack := (s.rack.perform n c).1 } :=
  .step (.performed _) ⟨rfl, rfl, rfl, rfl, [], rfl, List.forall_mem_nil _⟩

theorem turn_supply (s : Sender) (registry : Registry) {rack : Rack} {new : List Event}
    (hjournal : rack.journal = new ++ s.rack.journal) (hnew : ∀ e ∈ new, e.ByRegistry) :
    s.Turn { s with registry := registry, rack := rack } :=
  .step (.supplied registry hjournal hnew)
    ⟨rfl, rfl, rfl, rfl, new, hjournal, fun e he => (hnew e he).calm⟩

theorem runCallback_course (s : Sender) (instructions : List Instruction) :
    s.Course (s.runCallback instructions) := by
  induction instructions generalizing s with
  | nil => exact .refl
  | cons i rest ih => exact .head (.inside i) (ih (s.followNoted i))

theorem deliver_course (s : Sender) (image : EncodedImage) : s.Course (s.deliver image) :=
  ((Relation.ReflTransGen.single (s.turn_account image)).tail
    (turn_note _ (e := .image image) ⟨trivial, trivial⟩)).trans (runCallback_course _ _)

theorem deliverAll_course (s : Sender) (images : List EncodedImage) :
    s.Course (images.foldl deliver s) := by
  induction images generalizing s with
  | nil => exact .refl
  | cons image rest ih => exact (s.deliver_course image).trans (ih _)

theorem produce_course (s : Sender) (n : Nat) (c : EncoderCall) :
    s.Course (s.produce n c).1 := by
  have hperformed : s.Course { s with rack := (s.rack.perform n c).1 } :=
    .single (s.turn_perform n c)
  simp only [produce]
  split
  · exact (hperformed.trans (deliverAll_course _ _)).tail
      (turn_note _ (e := .answered n c none) ⟨trivial, trivial⟩)
  · exact hperformed.tail (turn_note _ (e := .answered n c (some _)) ⟨trivial, trivial⟩)

theorem interrupt_course (s : Sender) (n : Nat) : s.Course (s.interrupt n) := by
  unfold interrupt
  split
  · exact .refl
  · exact (runCallback_course _ _).tail (.step (.instructed _)
      ⟨rfl, rfl, rfl, rfl, [], rfl, List.forall_mem_nil _⟩)

theorem callEncode_course (s : Sender) (n : Nat) (frame : Frame) (kinds : List FrameKind)
    (info : Option SideInfo) : s.Course (s.callEncode n frame kinds info).1 :=
  ((Relation.ReflTransGen.single
    (s.turn_note (e := .called n (.encode frame kinds info)) ⟨trivial, trivial⟩)).trans
      (interrupt_course _ n)).trans (produce_course _ n _)

theorem callRequest_course (s : Sender) (n : Nat) (kinds : List FrameKind) :
    s.Course (s.callRequest n kinds).1 :=
  (Relation.ReflTransGen.single
    (s.turn_note (e := .called n (.request kinds)) ⟨trivial, trivial⟩)).trans
      (produce_course _ n _)

theorem callEncoder_course (s : Sender) (n : Nat) (c : EncoderCall) :
    s.Course (s.callEncoder n c).1 :=
  ((Relation.ReflTransGen.single (s.turn_note (e := .called n c) ⟨trivial, trivial⟩)).tail
    (turn_perform _ n c)).tail (turn_note _ (e := .answered n c _) ⟨trivial, trivial⟩)

theorem applyRates_course (s : Sender) (n : Nat) (rates : RateParameters)
    (internalSource : Bool) : s.Course (s.applyRates n rates internalSource).1 := by
  unfold applyRates
  split
  · exact .refl
  · exact s.callEncoder_course n _

theorem offerRates_course (s : Sender) (n : Nat) (plan : Plan) :
    s.Course (s.offerRates n plan) := by
  have happlied := s.applyRates_course n plan.rates plan.internalSource
  unfold offerRates
  split <;> rename_i heq <;> rw [heq] at happlied
  · exact happlied
  · exact happlied.tail (turn_note _ (e := .log (.ratesRejected _)) ⟨trivial, trivial⟩)

theorem encodeReadable_course (s : Sender) (n : Nat) (frame : Frame) (info : Option SideInfo)
    (plan : Plan) : s.Course (s.encodeReadable n frame info plan).1 := by
  have hcalled := s.callEncode_course n frame plan.schedule.kinds info
  unfold encodeReadable
  split <;> rename_i heq <;> rw [heq] at hcalled
  · exact hcalled.tail (turn_note _ (e := .log (.encodeFailed _)) ⟨trivial, trivial⟩)
  · exact hcalled.tail (turn_storeSchedule _ _)

theorem encodeOn_course (s : Sender) (slot : Handle) (frame : Frame) (info : Option SideInfo)
    (plan : Plan) : s.Course (s.encodeOn slot frame info plan).1 := by
  have hasked : s.Course (s.offerRates slot.encoder plan).askDrop.1 :=
    (s.offerRates_course slot.encoder plan).tail (turn_askDrop _)
  have hlogged : ∀ notice, (Event.log notice).Plain →
      s.Course ((s.offerRates slot.encoder plan).askDrop.1.log notice) := fun notice hplain =>
    hasked.tail (turn_note _ (e := .log notice) ⟨hplain, trivial⟩)
  simp only [encodeOn]
  split
  · exact (hlogged (.gated _) trivial).trans (callEncoder_course _ _ _)
  · split
    · exact (hlogged (.dropped _) trivial).trans (callEncoder_course _ _ _)
    · split
      · exact hlogged .wrongResolution trivial
      · split
        · exact hlogged (.notReadable _) trivial
        · exact hasked.trans (encodeReadable_course _ _ _ _ _)

theorem encode_course (s : Sender) (frame : Frame) (info : Option SideInfo) (copy : Plan) :
    s.Course (s.encode frame info copy).1 := by
  unfold encode
  split
  · exact .refl
  · exact s.encodeOn_course _ frame info _

theorem settleKey_course (s : Sender) (stream : Nat) (asked : Schedule) :
    s.Course (s.settleKey stream asked).1 := by
  unfold settleKey
  split
  · split
    · exact .single (s.turn_storeSchedule _)
    · exact .refl
  · exact .refl

theorem pullKey_course (s : Sender) (stream : Nat) : s.Course (s.pullKey stream).1 := by
  unfold pullKey
  split
  · exact .refl
  · split
    · exact .refl
    · rename_i slot _
      split
      · have hcalled := s.callRequest_course slot.encoder s.plan.schedule.kinds
        dsimp only
        split <;> rename_i heq <;> rw [heq] at hcalled
        · exact hcalled.tail (turn_note _ (e := .log (.keyRequestFailed _ _)) ⟨trivial, trivial⟩)
        · exact hcalled.trans (settleKey_course _ _ _)
      · exact .refl

theorem pushRates_course (s : Sender) (rates : RateParameters) :
    s.Course (s.pushRates rates).1 := by
  unfold pushRates
  split
  · exact .refl
  · rename_i slot _
    have happlied := s.applyRates_course slot.encoder rates true
    split <;> rename_i heq <;> rw [heq] at happlied <;> exact happlied

theorem askRegistry_course (s : Sender) (codec : Codec) (cores : UInt32) (maxPayload : Nat) :
    s.Course (s.askRegistry codec cores maxPayload).1 := by
  unfold askRegistry
  split
  · exact .single (.step (.refusing _)
      ⟨rfl, rfl, rfl, rfl, [], rfl, List.forall_mem_nil _⟩)
  · obtain ⟨new, hjournal, hnew⟩ :=
      (s.registry.register_registers s.rack codec cores maxPayload).journal
    exact .single (s.turn_supply _ hjournal hnew)

/-- A registration that succeeds ends with the adoption of an encoder. -/
theorem register_course (s : Sender) (codec : Codec) (cores : UInt32) (maxPayload : Nat) :
    (s.Course (s.register codec cores maxPayload).1 ∧
        (s.register codec cores maxPayload).2 ≠ .done) ∨
      ∃ t handle, s.Course t ∧
        s.register codec cores maxPayload = (t.adopt codec maxPayload handle, .done) := by
  have hasked := s.askRegistry_course codec cores maxPayload
  unfold register
  split
  · exact Or.inl ⟨.refl, by simp⟩
  · split <;> rename_i heq <;> rw [heq] at hasked
    · exact Or.inr ⟨_, _, hasked, rfl⟩
    · rename_i e
      have hlogged := hasked.tail
        (turn_note _ (e := .log (.registrationFailed codec e)) ⟨trivial, trivial⟩)
      exact Or.inl ⟨hlogged.tail (turn_seat _ _ _), by simp⟩

theorem attach_course (s : Sender) (payloadType : UInt8) (internalSource : Bool)
    (choice : EncoderChoice) : s.Course (s.attach payloadType internalSource choice).1 := by
  unfold attach
  split
  · exact .refl
  · rename_i rack n hchoice
    have hjournal : rack.journal = [] ++ s.rack.journal := (Rack.choose_setup hchoice).2.1
    exact .single (s.turn_supply _ hjournal (by simp))

theorem detach_course (s : Sender) (payloadType : UInt8) :
    s.Course (s.detach payloadType).1 := by
  obtain ⟨new, hjournal, hnew⟩ := (s.registry.detach_detaches s.rack payloadType).journal
  have hsupplied : s.Course { s with
      registry := (s.registry.detach s.rack payloadType).1
      rack := (s.registry.detach s.rack payloadType).2.1 } :=
    .single (s.turn_supply _ hjournal hnew)
  simp only [detach]
  split
  · exact hsupplied
  · exact hsupplied.tail (turn_seat _ none false)
  · exact hsupplied

theorem adopt_calm (s : Sender) (codec : Codec) (maxPayload : Nat) (handle : Handle) :
    s.Calm (s.adopt codec maxPayload handle) := by
  unfold adopt configureRate
  dsimp only
  split
  · exact ⟨rfl, rfl, rfl, rfl, [.log (.limited _), .rate (.configured _),
      .log (.registered codec maxPayload), .rate (.dropping _)], rfl, by simp [Event.Calm]⟩
  · exact ⟨rfl, rfl, rfl, rfl, [.rate (.configured _), .log (.registered codec maxPayload),
      .rate (.dropping _)], rfl, by simp [Event.Calm]⟩

theorem enableDropping_calm (s : Sender) (on : Bool) : s.Calm (s.enableDropping on) :=
  ⟨rfl, rfl, rfl, rfl, [.rate (.dropping on)], rfl, List.forall_mem_singleton.2 trivial⟩

/-- Every stage is a course, and then perhaps a calm step that is no small
one. -/
theorem runStage_course (s : Sender) (stage : EncoderStage) :
    ∃ t, s.Course t ∧ t.Calm (s.runStage stage).1 := by
  have hwhole : ∀ {t : Sender}, s.Course t → ∃ t', s.Course t' ∧ t'.Calm t :=
    fun h => ⟨_, h, .refl _⟩
  cases stage with
  | encode frame info copy => exact hwhole (s.encode_course frame info copy)
  | pullKey stream => exact hwhole (s.pullKey_course stream)
  | pushRates rates => exact hwhole (s.pushRates_course rates)
  | register codec cores maxPayload =>
      rcases s.register_course codec cores maxPayload with ⟨h, _⟩ | ⟨t, handle, h, heq⟩
      · exact hwhole h
      · exact ⟨t, h, by simpa only [runStage, heq] using t.adopt_calm codec maxPayload handle⟩
  | attach payloadType internalSource choice =>
      exact hwhole (s.attach_course payloadType internalSource choice)
  | detach payloadType => exact hwhole (s.detach_course payloadType)
  | enableDropping on => exact ⟨s, .refl, s.enableDropping_calm on⟩

theorem finish_course (s : Sender) (progress : Progress) :
    ∃ t, s.Course t ∧ t.Calm (s.finish progress).1 := by
  cases progress with
  | waits stage => exact s.runStage_course stage
  | finished reply => exact ⟨s, .refl, .refl s⟩

end Sender

end Simulcast
