import Mathlib.Data.List.Basic
import Simulcast.Proofs.Registry.Lifecycle
import Simulcast.Proofs.Traffic.Continuity

/-!
Registrations that fail. An invalid codec is turned down before anything is
touched. Any later failure leaves the sender without an encoder: the one that
was active is released once, and all that was planned, wished for and known of
rate control stays. From then on submissions of all threads, those under way
included, come back at once and do nothing, until a codec is registered.
-/

namespace Simulcast

namespace Registry

variable {g : Registry} {rack : Rack} {codec : Codec} {cores : UInt32} {maxPayload : Nat}

theorem releases_releaseEntries (active : Option ActiveEncoder) (fault : Option EncoderFault)
    (n : Nat) :
    releases n (releaseEntries active fault) =
      if active.map (·.handle.encoder) = some n then 1 else 0 := by
  cases active with
  | none => rfl
  | some a =>
      by_cases hn : a.handle.encoder = n
      · cases fault <;> simp [releaseEntries, releases, Event.releases, hn]
      · cases fault <;> simp [releaseEntries, releases, Event.releases, hn]

/-- A registration of a valid codec that fails leaves no encoder, and has
released the active one once. -/
theorem register_vacates {e : RegistryError} (hfault : codec.fault? = none)
    (h : (g.register rack codec cores maxPayload).2.2 = .error e) :
    (g.register rack codec cores maxPayload).1 = g.vacated ∧
      (∀ fault, e ≠ .invalidCodec fault) ∧
      ∃ new, (g.register rack codec cores maxPayload).2.1.journal = new ++ rack.journal ∧
        (∀ n, releases n new = if g.active.map (·.handle.encoder) = some n then 1 else 0) ∧
        ∀ e ∈ new, e.ByRegistry := by
  have hregisters := g.register_registers rack codec cores maxPayload
  generalize g.register rack codec cores maxPayload = result at hregisters h ⊢
  cases hregisters with
  | invalid hinvalid => simp [hinvalid] at hfault
  | kept active same => simp at h
  | missing _ _ fault hjournal =>
      obtain rfl := Except.error.inj h
      exact ⟨rfl, by simp, _, hjournal, releases_releaseEntries g.active fault,
        byRegistry_releaseEntries g.active fault⟩
  | failed _ _ fault n name f hjournal =>
      obtain rfl := Except.error.inj h
      refine ⟨rfl, by simp, .log (.initFailed name codec.name f) ::
        (initEntries n codec.clamped cores maxPayload (some f) ++ releaseEntries g.active fault),
        by simp [hjournal], ?_, ?_⟩
      · intro m
        have hreleased := releases_releaseEntries g.active fault m
        simp only [releases] at hreleased
        simp [releases, Event.releases, initEntries, hreleased]
      · rw [List.forall_mem_cons, List.forall_mem_append]
        exact ⟨trivial, byRegistry_initEntries n codec.clamped cores maxPayload (some f),
          byRegistry_releaseEntries g.active fault⟩
  | installed => simp at h

end Registry

namespace Sender

variable {s : Sender} {codec : Codec} {cores : UInt32} {maxPayload : Nat} {error : SendError}

/-- From `s` to `s'` the active encoder is given up and released once, rate
control is not asked anything, and nothing else changes. -/
structure Vacates (s s' : Sender) : Prop where
  slot : s'.slot = none
  encoder : s'.registry.encoder? = none
  sendCodec : s'.registry.sendCodec = none
  source : s'.plan.internalSource = false
  schedule : s'.plan.schedule = s.plan.schedule
  rates : s'.plan.rates = s.plan.rates
  codec : s'.codec = s.codec
  dropping : s'.dropping = s.dropping
  rate : s'.rate = s.rate
  released : ∀ n, releases n (entriesSince s.rack.journal s'.rack.journal) =
    if s.slot.map Handle.encoder = some n then 1 else 0
  unasked : ∀ c, .rate c ∉ entriesSince s.rack.journal s'.rack.journal

/-- A registration that fails after the codec was found to be valid. -/
theorem register_vacates (hs : s.Coherent) (hplain : s.refusal = none)
    (hfault : codec.fault? = none)
    (hfailed : (s.register codec cores maxPayload).2 = .failed error) :
    s.Vacates (s.register codec cores maxPayload).1 ∧
      ∀ fault, error ≠ .invalidCodec fault := by
  cases hregister : s.registry.register s.rack codec cores maxPayload with
  | mk registry rest =>
  obtain ⟨rack, result⟩ := rest
  cases result with
  | ok handle => simp [register, hfault, askRegistry, hplain, hregister] at hfailed
  | error e =>
      have heq : s.register codec cores maxPayload =
          ((({ s with registry := registry, rack := rack } : Sender).log
            (.registrationFailed codec e)).keepRegistered,
            .failed (SendError.ofRegistry e)) := by
        simp [register, hfault, askRegistry, hplain, hregister]
      have hregistered : (s.registry.register s.rack codec cores maxPayload).2.2 = .error e := by
        rw [hregister]
      obtain ⟨hvacated, hnot, new, hjournal, hreleased, hnew⟩ :=
        Registry.register_vacates hfault hregistered
      rw [hregister] at hvacated hjournal
      change registry = s.registry.vacated at hvacated
      change rack.journal = new ++ s.rack.journal at hjournal
      subst hvacated
      rw [heq] at hfailed ⊢
      have hentries : entriesSince s.rack.journal
          ((({ s with registry := s.registry.vacated, rack := rack } : Sender).log
            (.registrationFailed codec e)).keepRegistered).rack.journal =
          .log (.registrationFailed codec e) :: new := by
        rw [← entriesSince_append (.log (.registrationFailed codec e) :: new) s.rack.journal,
          List.cons_append, ← hjournal]
        rfl
      constructor
      · refine ⟨rfl, rfl, rfl, rfl, rfl, rfl, rfl, rfl, rfl, ?_, ?_⟩
        · intro n
          rw [hentries]
          have hslot : s.slot.map Handle.encoder = s.registry.active.map (·.handle.encoder) := by
            rw [hs.slot, Registry.encoder?, Option.map_map]
            rfl
          rw [hslot, ← hreleased n]
          simp [releases, Event.releases]
        · intro c
          rw [hentries, List.mem_cons]
          rintro (hlog | hmem)
          · simp at hlog
          · exact hnew _ hmem
      · rintro fault rfl
        rw [Reply.failed.injEq] at hfailed
        cases e <;> simp_all [SendError.ofRegistry]

/-- Without an encoder a submission comes back at once, whatever copy of the
plan it carries. -/
theorem encode_vacant (hslot : s.slot = none) (frame : Frame) (info : Option SideInfo)
    (copy : Plan) : s.runStage (.encode frame info copy) = (s, .failed .uninitialized) := by
  simp [runStage, encode, hslot, Reply.ofSubmission]

end Sender

namespace Traffic

/-- Over a registry that turns nothing down by arrangement, a registration that
fails for an invalid codec leaves the sender as it was. One that fails
otherwise gives the encoder up, and then every submission, whatever copy it
carries, comes back at once until a codec is registered. -/
theorem failed_registration_contained {s : Sender} (hs : s.Fresh) (moves : List Move)
    (codec : Codec) (cores : UInt32) (maxPayload : Nat) {error : SendError}
    (hplain : (run { sender := s } moves).sender.refusal = none)
    (hfailed : ((run { sender := s } moves).sender.register codec cores maxPayload).2 =
      .failed error) :
    ((∃ fault, error = .invalidCodec fault) →
        ((run { sender := s } moves).sender.register codec cores maxPayload).1 =
          (run { sender := s } moves).sender) ∧
      ((∀ fault, error ≠ .invalidCodec fault) →
        (run { sender := s } moves).sender.Vacates
            ((run { sender := s } moves).sender.register codec cores maxPayload).1 ∧
          ∀ (t : Traffic) (more : List Move),
            t.sender = ((run { sender := s } moves).sender.register codec cores maxPayload).1 →
            t.accepted more = [] →
            ∀ frame info copy,
              (t.run more).sender.runStage (.encode frame info copy) =
                  ((t.run more).sender, .failed .uninitialized) ∧
                (t.run more).sender.call (.submit frame info) =
                  ((t.run more).sender, .failed .uninitialized)) := by
  have hcoherent : (run { sender := s } moves).sender.Coherent := run_coherent hs.coherent moves
  cases hfault : codec.fault? with
  | some fault =>
      have heq : (run { sender := s } moves).sender.register codec cores maxPayload =
          ((run { sender := s } moves).sender, .failed (.invalidCodec fault)) := by
        simp [Sender.register, hfault]
      rw [heq] at hfailed ⊢
      obtain rfl := Reply.failed.inj hfailed
      exact ⟨fun _ => rfl, fun hvalid => absurd rfl (hvalid fault)⟩
  | none =>
      obtain ⟨hvacates, hvalid⟩ := Sender.register_vacates hcoherent hplain hfault hfailed
      constructor
      · rintro ⟨fault, hinvalid⟩
        exact absurd hinvalid (hvalid fault)
      · intro _
        refine ⟨hvacates, fun t more hsender hnone frame info copy => ?_⟩
        have ht : t.sender.Coherent := by
          rw [hsender]
          exact (Sender.register_end hcoherent codec cores maxPayload).1
        have hvacant := run_vacant ht (by rw [hsender, hvacates.slot]) hnone
        exact ⟨Sender.encode_vacant hvacant frame info copy,
          Sender.encode_vacant hvacant frame info (t.run more).sender.plan⟩

/-- While a submission is under way, an encoder is attached that cannot be
initialised. -/
def doomed : Traffic :=
  run { sender := Sender.sample }
    [.follow (.act (Sender.sampleRegistration 1)), .follow (.act Sender.sampleFeedback),
      .enter (.submit Sender.sampleFrame none),
      .follow (.act (.call (.attach 97 false (.fresh { faults := { init := some .memory } }))))]

/-- A codec that the encoder is attached for. -/
def doomedCodec : Codec := { Sender.sampleCodec 2 with payloadType := 97 }

/-- What is done once the registration has failed: the submission goes on, the
network is heard of, and a key frame is requested. -/
def aftermath : List Move :=
  [.proceed 0, .follow (.act Sender.sampleFeedback), .follow (.act (.call (.requestKey 0))),
    .follow (.act .tick)]

/-- The encoder in use is lost with the registration, and the next submission
comes back at once. -/
theorem failed_registration_contained_doomed :
    (doomed.sender.register doomedCodec 1 1200).2 = .failed (.registry (.initFailed .memory)) ∧
      doomed.sender.slot = some ⟨0, false, false⟩ ∧
      doomed.sender.Vacates (doomed.sender.register doomedCodec 1 1200).1 ∧
      (run ⟨(doomed.sender.register doomedCodec 1 1200).1, doomed.calls⟩ aftermath).sender.call
          (.submit Sender.sampleFrame none) =
        ((run ⟨(doomed.sender.register doomedCodec 1 1200).1, doomed.calls⟩ aftermath).sender,
          .failed .uninitialized) := by
  have hplain : doomed.sender.refusal = none := by decide +kernel
  have hfailed : (doomed.sender.register doomedCodec 1 1200).2 =
      .failed (.registry (.initFailed .memory)) := by
    decide +kernel
  have hnone : accepted ⟨(doomed.sender.register doomedCodec 1 1200).1, doomed.calls⟩ aftermath =
      [] := by
    decide +kernel
  obtain ⟨_, hlater⟩ :=
    failed_registration_contained Sender.sample_fresh _ doomedCodec 1 1200 hplain hfailed
  obtain ⟨hvacates, hvacant⟩ := hlater nofun
  exact ⟨hfailed, by decide +kernel, hvacates,
    (hvacant _ aftermath rfl hnone Sender.sampleFrame none {}).2⟩

end Traffic

end Simulcast
