import Mathlib.Data.List.Basic
import Simulcast.Proofs.Registry.Sound
import Simulcast.Proofs.Sender.Sections
import Simulcast.Sender.Operation

/-!
The joint invariant of a sender. The slot, the registry, the codec and the plan
are written by different operations at different moments, and some of these
fail half way; after each of them the four say the same of the active encoder,
and the schedule belongs to the codec registered last.
-/

namespace Simulcast

namespace Sender

/-- Slot, registry, codec, plan and journal agree. -/
structure Coherent (s : Sender) : Prop where
  registry : s.registry.Sound s.rack
  slot : s.slot = s.registry.encoder?
  source : s.plan.internalSource = (s.slot.map Handle.internalSource).getD false
  serving : ∀ handle, s.slot = some handle →
    ∃ codec, s.codec = some codec ∧ s.registry.sendCodec = some codec.clamped
  accepted : ∀ codec, s.codec = some codec → codec.fault? = none
  size : s.plan.schedule.size = (s.codec.map Codec.streamCount).getD 1
  generation : s.plan.schedule.generation = UInt64.ofNat (registrations s.rack.journal)

/-- A sender as it is set up: over any registry without an active encoder, with
no codec and an untouched plan. Encoders may be attached already, and anything
may be set to happen in callbacks. -/
structure Fresh (s : Sender) : Prop where
  slot : s.slot = none
  codec : s.codec = none
  plan : s.plan = {}
  active : s.registry.active = none
  sendCodec : s.registry.sendCodec = none
  attached : ∀ p a, s.registry.attachments p = some a → a.encoder < s.rack.encoders.size
  unregistered : registrations s.rack.journal = 0

theorem start_fresh (o : SenderOptions) (now : Millis) : (start o now).Fresh := by
  unfold start
  cases o.dropping <;> exact ⟨rfl, rfl, rfl, rfl, rfl, nofun, rfl⟩

/-- A sender with scripted rates and synthetic encoders, for worked runs. -/
def sample : Sender := start { rate := .scripted {}, blueprints := fun _ => some {} } 0

theorem sample_fresh : sample.Fresh := start_fresh _ _

/-- A codec for worked runs, with so many streams. -/
def sampleCodec (streams : UInt8) : Codec :=
  { resolution := ⟨2, 2⟩, simulcastStreams := streams }

/-- A frame for worked runs, of the resolution of `sampleCodec`. -/
def sampleFrame : Frame := { picture := .planar ⟨⟨2, 2⟩, #[]⟩ }

def sampleRegistration (streams : UInt8) : Action :=
  .call (.register (sampleCodec streams) 1 1200)

def sampleFeedback : Action := .call (.feedback ⟨500000, 0, 50⟩)

variable {s s' : Sender}

theorem Fresh.coherent (h : s.Fresh) : s.Coherent where
  registry := ⟨by simp [h.active], fun _ => h.sendCodec, h.attached⟩
  slot := by simp [h.slot, Registry.encoder?, h.active]
  source := by simp [h.slot, h.plan]
  serving := by simp [h.slot]
  accepted := by simp [h.codec]
  size := by simp [h.codec, h.plan, Schedule.size]
  generation := by simp [h.plan, h.unregistered]

theorem Stretch.registrations {P : Event → Prop} {new : List Event} (h : Stretch P s s' new)
    (hP : ∀ e, P e → e.Routine) :
    registrations s'.rack.journal = registrations s.rack.journal := by
  rw [h.journal, registrations_append,
    registrations_of_routine fun e he => hP e (h.entries e he), Nat.zero_add]

/-- Whatever uses encoders without registering anything keeps the agreement. -/
theorem Stretch.coherent {P : Event → Prop} {new : List Event} (h : Stretch P s s' new)
    (hP : ∀ e, P e → e.Routine) (hs : s.Coherent) : s'.Coherent := by
  have hnew : ∀ e ∈ new, e.Routine := fun e he => hP e (h.entries e he)
  exact
    { registry := h.registry ▸ hs.registry.of_alike h.rack h.journal hnew
      slot := by rw [h.slot, h.registry, hs.slot]
      source := by rw [h.source, h.slot, hs.source]
      serving := by
        rw [h.slot, h.codec, h.registry]
        exact hs.serving
      accepted := by
        rw [h.codec]
        exact hs.accepted
      size := by rw [h.schedule, Schedule.heed_size, h.codec, hs.size]
      generation := by
        rw [h.schedule, Schedule.heed_generation, h.registrations hP, hs.generation] }

theorem Coherent.storeSchedule (hs : s.Coherent) (schedule : Schedule)
    (hsize : schedule.size = s.plan.schedule.size)
    (hgeneration : schedule.generation = s.plan.schedule.generation) :
    (s.storeSchedule schedule).Coherent :=
  { hs with
    size := hsize.trans hs.size
    generation := hgeneration.trans hs.generation }

theorem Coherent.kinds_length {codec : Codec} (hs : s.Coherent) (hcodec : s.codec = some codec) :
    s.plan.schedule.kinds.length = codec.streamCount := by
  simpa [hcodec, Schedule.size] using hs.size

/-- A codec was registered between `s` and `s'`. -/
structure Registered (s s' : Sender) (next : Codec) (maxPayload : Nat) : Prop where
  codec : s'.codec = some next
  schedule : s'.plan.schedule = s.plan.schedule.reset next.streamCount
  journal : ∃ new, s'.rack.journal = new ++ s.rack.journal ∧ registrations new = 1 ∧
    ∀ e ∈ new, e.SetsUp ∨ e = .log (.registered next maxPayload)

/-- Encoders may have been attached, set up or given up between `s` and `s'`,
but no codec was registered. -/
structure Unregistered (s s' : Sender) : Prop where
  codec : s'.codec = s.codec
  schedule : s'.plan.schedule = s.plan.schedule
  slot : s'.slot = s.slot ∨ s'.slot = none
  journal : ∃ new, s'.rack.journal = new ++ s.rack.journal ∧ ∀ e ∈ new, e.SetsUp

theorem Unregistered.refl (s : Sender) : s.Unregistered s :=
  ⟨rfl, rfl, Or.inl rfl, [], rfl, by simp⟩

theorem registrations_of_setsUp {new : List Event} (h : ∀ e ∈ new, e.SetsUp) :
    registrations new = 0 :=
  registrations_of_none fun e he => (h e he).isRegistration

theorem Unregistered.registrations (h : s.Unregistered s') :
    registrations s'.rack.journal = registrations s.rack.journal := by
  obtain ⟨new, hjournal, hnew⟩ := h.journal
  rw [hjournal, registrations_append, registrations_of_setsUp hnew, Nat.zero_add]

theorem Registered.registrations {codec : Codec} {maxPayload : Nat}
    (h : s.Registered s' codec maxPayload) :
    Simulcast.registrations s'.rack.journal = Simulcast.registrations s.rack.journal + 1 := by
  obtain ⟨new, hjournal, hone, _⟩ := h.journal
  rw [hjournal, registrations_append, hone, Nat.add_comm]

/-- What is left of a sender when an encoder is adopted for a codec. -/
theorem adopt_end (s : Sender) (codec : Codec) (maxPayload : Nat) (handle : Handle) :
    (s.adopt codec maxPayload handle).registry = s.registry ∧
      (s.adopt codec maxPayload handle).rack.encoders = s.rack.encoders ∧
      (s.adopt codec maxPayload handle).slot = some handle ∧
      (s.adopt codec maxPayload handle).codec = some codec ∧
      (s.adopt codec maxPayload handle).plan.internalSource = handle.internalSource ∧
      (s.adopt codec maxPayload handle).plan.schedule =
        s.plan.schedule.reset codec.streamCount ∧
      ∃ newer, (s.adopt codec maxPayload handle).rack.journal =
          newer ++ .log (.registered codec maxPayload) ::
            ([.rate (.dropping (s.mayDrop codec))] ++ s.rack.journal) ∧
        ∀ e ∈ newer, e.Routine ∧ e.SetsUp := by
  unfold adopt configureRate
  dsimp only
  split
  · refine ⟨rfl, rfl, rfl, rfl, rfl, rfl,
      [.log (.limited (codec.limits maxPayload)), .rate (.configured (codec.limits maxPayload))],
      rfl, ?_⟩
    simp [Event.Routine, Event.SetsUp]
  · refine ⟨rfl, rfl, rfl, rfl, rfl, rfl, [.rate (.configured (codec.limits maxPayload))],
      rfl, ?_⟩
    simp [Event.Routine, Event.SetsUp]

theorem adopt_registered (s : Sender) (codec : Codec) (maxPayload : Nat) (handle : Handle) :
    s.Registered (s.adopt codec maxPayload handle) codec maxPayload := by
  obtain ⟨_, _, _, hcodec, _, hschedule, newer, hjournal, hnewer⟩ :=
    s.adopt_end codec maxPayload handle
  refine ⟨hcodec, hschedule, newer ++ .log (.registered codec maxPayload) ::
    [.rate (.dropping (s.mayDrop codec))], ?_, ?_, ?_⟩
  · rw [hjournal, List.append_assoc]
    rfl
  · rw [registrations_append, registrations_of_setsUp fun e he => (hnewer e he).2]
    rfl
  · intro e he
    rcases List.mem_append.mp he with he | he
    · exact Or.inl (hnewer e he).2
    · rcases List.mem_cons.mp he with he | he
      · exact Or.inr he
      · rw [List.mem_singleton.mp he]
        exact Or.inl trivial

theorem Registered.after_setup {t : Sender} {codec : Codec} {maxPayload : Nat}
    {first : List Event} (h : t.Registered s' codec maxPayload)
    (hschedule : t.plan.schedule = s.plan.schedule)
    (hjournal : t.rack.journal = first ++ s.rack.journal) (hfirst : ∀ e ∈ first, e.SetsUp) :
    s.Registered s' codec maxPayload := by
  obtain ⟨new, hnew, hone, hentries⟩ := h.journal
  refine ⟨h.codec, hschedule ▸ h.schedule, new ++ first, ?_, ?_, ?_⟩
  · rw [hnew, hjournal, List.append_assoc]
  · rw [registrations_append, hone, registrations_of_setsUp hfirst]
  · intro e he
    exact (List.mem_append.mp he).elim (hentries e) fun he => Or.inl (hfirst e he)

theorem adopt_coherent (s : Sender) (codec : Codec) (maxPayload : Nat) (handle : Handle)
    (hregistry : s.registry.Sound s.rack) (hencoder : s.registry.encoder? = some handle)
    (hsend : s.registry.sendCodec = some codec.clamped) (hfault : codec.fault? = none)
    (hgeneration :
      s.plan.schedule.generation = UInt64.ofNat (registrations s.rack.journal)) :
    (s.adopt codec maxPayload handle).Coherent := by
  obtain ⟨hreg, hencoders, hslot, hcodec, hsource, hschedule, newer, hjournal, hnewer⟩ :=
    s.adopt_end codec maxPayload handle
  have hcount : registrations (s.adopt codec maxPayload handle).rack.journal =
      registrations s.rack.journal + 1 := by
    have hzero : registrations newer = 0 := registrations_of_routine fun e he => (hnewer e he).1
    rw [hjournal, registrations_append, hzero, Nat.zero_add, registrations_cons]
    rfl
  -- The registration itself is no routine entry, so soundness is read off the journal directly.
  have hinit : ∀ n, initialised? n (s.adopt codec maxPayload handle).rack.journal =
      initialised? n s.rack.journal := by
    intro n
    rw [hjournal, initialised?_of_routine fun e he => (hnewer e he).1]
    exact (initialised?_cons_of_none rfl _).trans (initialised?_cons_of_none rfl _)
  have hencoder' : ∀ n, (s.adopt codec maxPayload handle).rack.encoder n = s.rack.encoder n := by
    intro n
    simp only [Rack.encoder, hencoders]
  refine ⟨⟨?_, ?_, ?_⟩, ?_, ?_, ?_, ?_, ?_, ?_⟩
  · rw [hreg, hencoders]
    intro a ha
    rw [hencoder', hinit]
    exact hregistry.active a ha
  · rw [hreg]
    exact hregistry.idle
  · rw [hreg, hencoders]
    exact hregistry.attached
  · rw [hslot, hreg, hencoder]
  · simp [hsource, hslot]
  · intro h _
    exact ⟨codec, hcodec, by rw [hreg, hsend]⟩
  · intro c hc
    rw [hcodec, Option.some.injEq] at hc
    rwa [← hc]
  · rw [hschedule, hcodec, Schedule.reset_size]
    exact Nat.max_eq_right (Nat.le_max_left 1 _)
  · rw [hschedule, Schedule.reset_generation, hgeneration, hcount, UInt64.ofNat_add]
    rfl

theorem keepRegistered_coherent (s : Sender) (hregistry : s.registry.Sound s.rack)
    (hserving : ∀ handle, s.registry.encoder? = some handle →
      ∃ codec, s.codec = some codec ∧ s.registry.sendCodec = some codec.clamped)
    (haccepted : ∀ codec, s.codec = some codec → codec.fault? = none)
    (hsize : s.plan.schedule.size = (s.codec.map Codec.streamCount).getD 1)
    (hgeneration :
      s.plan.schedule.generation = UInt64.ofNat (registrations s.rack.journal)) :
    s.keepRegistered.Coherent :=
  ⟨hregistry, rfl, rfl, hserving, haccepted, hsize, hgeneration⟩

/-- A registration either succeeds, and then every stream needs a key frame, or
leaves codec and schedule alone, and then at most the encoder is gone. -/
theorem register_end (hs : s.Coherent) (codec : Codec) (cores : UInt32) (maxPayload : Nat) :
    (s.register codec cores maxPayload).1.Coherent ∧
      ((s.Registered (s.register codec cores maxPayload).1 codec maxPayload ∧
          (s.register codec cores maxPayload).2 = .done) ∨
        (s.Unregistered (s.register codec cores maxPayload).1 ∧
          (s.register codec cores maxPayload).2 ≠ .done)) := by
  cases hfault : codec.fault? with
  | some fault =>
      have heq : s.register codec cores maxPayload = (s, .failed (.invalidCodec fault)) := by
        simp [register, hfault]
      rw [heq]
      exact ⟨hs, Or.inr ⟨Unregistered.refl s, by simp⟩⟩
  | none =>
  cases hrefusal : s.refusal with
  | some refusal =>
      have heq : s.register codec cores maxPayload =
          ((({ s with refusal := none } : Sender).log
            (.registrationFailed codec (refusal.error codec))).keepRegistered,
            .failed (SendError.ofRegistry (refusal.error codec))) := by
        simp [register, hfault, askRegistry, hrefusal]
      rw [heq]
      constructor
      · apply keepRegistered_coherent
        · exact hs.registry.note (.log _) trivial
        · intro handle hhandle
          exact hs.serving handle (hs.slot.trans hhandle)
        · exact hs.accepted
        · exact hs.size
        · exact hs.generation
      · refine Or.inr ⟨⟨rfl, rfl, Or.inl hs.slot.symm, [_], rfl, ?_⟩, by simp⟩
        simp [Event.SetsUp]
  | none =>
  have hreplaced := Registry.register_replaced codec cores maxPayload hs.registry hfault
  cases hregister : s.registry.register s.rack codec cores maxPayload with
  | mk registry rest =>
  obtain ⟨rack, result⟩ := rest
  rw [hregister] at hreplaced
  obtain ⟨new, hnew'⟩ := hreplaced.setup.journal
  have hjournal : rack.journal = new ++ s.rack.journal := hnew'.1
  have hnew : ∀ e ∈ new, e.SetsUp := hnew'.2
  have hgeneration : s.plan.schedule.generation = UInt64.ofNat (registrations rack.journal) := by
    rw [hjournal, registrations_append, registrations_of_setsUp hnew, Nat.zero_add, hs.generation]
  cases result with
  | ok handle =>
      have heq : s.register codec cores maxPayload =
          (({ s with registry := registry, rack := rack } : Sender).adopt codec maxPayload handle,
            .done) := by
        simp [register, hfault, askRegistry, hrefusal, hregister]
      obtain ⟨hencoder, hsend⟩ := hreplaced.installed handle rfl
      rw [heq]
      refine ⟨adopt_coherent _ codec maxPayload handle hreplaced.sound hencoder hsend hfault
        hgeneration, Or.inl ⟨?_, rfl⟩⟩
      exact (adopt_registered _ codec maxPayload handle).after_setup rfl hjournal hnew
  | error e =>
      have heq : s.register codec cores maxPayload =
          ((({ s with registry := registry, rack := rack } : Sender).log
            (.registrationFailed codec e)).keepRegistered,
            .failed (SendError.ofRegistry e)) := by
        simp [register, hfault, askRegistry, hrefusal, hregister]
      have hidle : registry.active = none := hreplaced.failed e rfl
      have hnone : registry.encoder? = none := by rw [Registry.encoder?, hidle, Option.map_none]
      rw [heq]
      constructor
      · apply keepRegistered_coherent
        · exact hreplaced.sound.note (.log _) trivial
        · intro handle hhandle
          exact absurd (hnone.symm.trans hhandle) (Option.some_ne_none handle).symm
        · exact hs.accepted
        · exact hs.size
        · exact hgeneration
      · refine Or.inr ⟨⟨rfl, rfl, Or.inr hnone, .log (.registrationFailed codec e) :: new, ?_,
          ?_⟩, by simp⟩
        · exact congrArg (Event.log (.registrationFailed codec e) :: ·) hjournal
        · intro e' he'
          rcases List.mem_cons.mp he' with rfl | hold
          · trivial
          · exact hnew e' hold

theorem attach_end (hs : s.Coherent) (payloadType : UInt8) (internalSource : Bool)
    (choice : EncoderChoice) :
    (s.attach payloadType internalSource choice).1.Coherent ∧
      s.Unregistered (s.attach payloadType internalSource choice).1 := by
  cases hchoice : s.rack.choose choice with
  | none =>
      have heq : s.attach payloadType internalSource choice = (s, .absent) := by
        simp [attach, hchoice]
      rw [heq]
      exact ⟨hs, Unregistered.refl s⟩
  | some found =>
      obtain ⟨rack, n⟩ := found
      obtain ⟨hsetup, hjournal, hn⟩ := Rack.choose_setup hchoice
      have heq : s.attach payloadType internalSource choice =
          ({ s with
              rack := rack
              registry := s.registry.attach payloadType internalSource n }, .done) := by
        simp [attach, hchoice]
      have hgeneration :
          s.plan.schedule.generation = UInt64.ofNat (registrations rack.journal) := by
        rw [hjournal, hs.generation]
      rw [heq]
      exact ⟨⟨hs.registry.attach hsetup hjournal payloadType internalSource hn, hs.slot,
        hs.source, hs.serving, hs.accepted, hs.size, hgeneration⟩,
        rfl, rfl, Or.inl rfl, [], hjournal, by simp⟩

theorem detach_end (hs : s.Coherent) (payloadType : UInt8) :
    (s.detach payloadType).1.Coherent ∧ s.Unregistered (s.detach payloadType).1 := by
  have hdetached := Registry.detach_detached payloadType hs.registry
  cases hdetach : s.registry.detach s.rack payloadType with
  | mk registry rest =>
  obtain ⟨rack, result⟩ := rest
  rw [hdetach] at hdetached
  obtain ⟨new, hnew'⟩ := hdetached.setup.journal
  have hjournal : rack.journal = new ++ s.rack.journal := hnew'.1
  have hnew : ∀ e ∈ new, e.SetsUp := hnew'.2
  have hgeneration : s.plan.schedule.generation = UInt64.ofNat (registrations rack.journal) := by
    rw [hjournal, registrations_append, registrations_of_setsUp hnew, Nat.zero_add, hs.generation]
  -- The slot follows the registry: it is emptied exactly when the encoder is given up.
  by_cases hgone : result = .ok true
  · have hnone : registry.encoder? = none := by
      rw [Registry.encoder?, hdetached.dropped hgone, Option.map_none]
    have heq : s.detach payloadType =
        (({ s with registry := registry, rack := rack, slot := none } : Sender).storeSource false,
          .done) := by
      simp [detach, hdetach, hgone]
    rw [heq]
    have hserving : ∀ handle : Handle, none = some handle →
        ∃ codec, s.codec = some codec ∧ registry.sendCodec = some codec.clamped :=
      fun handle hslot => absurd hslot (Option.some_ne_none handle).symm
    exact ⟨⟨hdetached.sound, hnone.symm, rfl, hserving, hs.accepted, hs.size, hgeneration⟩,
      rfl, rfl, Or.inr rfl, new, hjournal, hnew⟩
  · obtain ⟨hactive, hsend⟩ := hdetached.kept hgone
    have heq : (s.detach payloadType).1 = { s with registry := registry, rack := rack } := by
      cases result with
      | error e => simp [detach, hdetach]
      | ok given =>
          cases given with
          | true => exact absurd rfl hgone
          | false => simp [detach, hdetach]
    have hencoder : s.slot = registry.encoder? := by
      rw [hs.slot, Registry.encoder?, Registry.encoder?]
      exact congrArg (Option.map ActiveEncoder.handle) hactive.symm
    have hserving : ∀ handle, s.slot = some handle →
        ∃ codec, s.codec = some codec ∧ registry.sendCodec = some codec.clamped := by
      intro handle hhandle
      obtain ⟨codec, hcodec, hclamped⟩ := hs.serving handle hhandle
      exact ⟨codec, hcodec, hsend.trans hclamped⟩
    rw [heq]
    exact ⟨⟨hdetached.sound, hencoder, hs.source, hserving, hs.accepted, hs.size, hgeneration⟩,
      rfl, rfl, Or.inl rfl, new, hjournal, hnew⟩

theorem enableDropping_end (hs : s.Coherent) (on : Bool) :
    (s.enableDropping on).Coherent ∧ s.Unregistered (s.enableDropping on) := by
  have hnew : ∀ e ∈ ([.rate (.dropping on)] : List Event), e.Routine := by
    simp [Event.Routine]
  exact ⟨⟨hs.registry.of_alike (Rack.note_alike _ _) rfl hnew, hs.slot, hs.source, hs.serving,
    hs.accepted, hs.size, hs.generation⟩,
    rfl, rfl, Or.inl rfl, [.rate (.dropping on)], rfl, by simp [Event.SetsUp]⟩

end Sender

end Simulcast
