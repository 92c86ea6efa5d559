import Mathlib.Data.List.Basic
import Simulcast.Proofs.Registry.Outcome

/-!
The registry and the encoders it calls. Its calls only set encoders up and give
them up; through all of them, whether they fail or not, the active encoder is
the one whose last initialisation was for the send codec and that has not been
released since.
-/

namespace Simulcast

namespace Registry

/-- The registry and the encoders agree: the active encoder exists, has the
capability it was installed with and is initialised for the send codec; without
one there is no send codec; and attached encoders exist. -/
structure Sound (g : Registry) (rack : Rack) : Prop where
  active : ∀ a, g.active = some a →
    a.handle.encoder < rack.encoders.size ∧
      a.handle.nativeInput = (rack.encoder a.handle.encoder).nativeInput ∧
      ∃ codec, g.sendCodec = some codec ∧
        initialised? a.handle.encoder rack.journal = some codec
  idle : g.active = none → g.sendCodec = none
  attached : ∀ p a, g.attachments p = some a → a.encoder < rack.encoders.size

theorem Sound.of_alike {g : Registry} {rack rack' : Rack} (h : g.Sound rack)
    (halike : rack.Alike rack') {new : List Event} (hjournal : rack'.journal = new ++ rack.journal)
    (hnew : ∀ e ∈ new, e.Routine) : g.Sound rack' where
  active a ha := by
    obtain ⟨hlt, hnative, codec, hcodec, hinit⟩ := h.active a ha
    refine ⟨by rwa [halike.size], ?_, codec, hcodec, ?_⟩
    · rw [hnative, (halike.encoder _).nativeInput]
    · rw [hjournal, initialised?_of_routine hnew, hinit]
  idle := h.idle
  attached p a ha := by
    rw [halike.size]
    exact h.attached p a ha

theorem Sound.note {g : Registry} {rack : Rack} (h : g.Sound rack) (e : Event)
    (he : e.Routine) : g.Sound (rack.note e) := by
  have hjournal : (rack.note e).journal = [e] ++ rack.journal := rfl
  exact h.of_alike (rack.note_alike e) hjournal (by simpa using he)

theorem Sound.vacated {g : Registry} {rack rack' : Rack} (h : g.Sound rack)
    (hsetup : rack.Setup rack') : g.vacated.Sound rack' where
  active := nofun
  idle _ := rfl
  attached p a ha := Nat.lt_of_lt_of_le (h.attached p a ha) hsetup.size

/-- The encoder that is supplied is on the rack. -/
theorem Sound.supplied {g : Registry} {rack rack' : Rack} {codec : Codec} {a : ActiveEncoder}
    (h : g.Sound rack) (hsupplies : g.Supplies rack codec a) (hsetup : rack.Setup rack')
    (hbuilt : a.attachedTo = none → a.handle.encoder < rack'.encoders.size) :
    a.handle.encoder < rack'.encoders.size := by
  cases hsupplies with
  | attached ha nativeInput => exact Nat.lt_of_lt_of_le (h.attached _ _ ha) hsetup.size
  | built _ _ nativeInput => exact hbuilt rfl

theorem initialised?_initEntries (n : Nat) (codec : Codec) (cores : UInt32) (maxPayload : Nat)
    (old : List Event) :
    initialised? n (initEntries n codec cores maxPayload none ++ old) = some codec := by
  simp [initEntries, initialised?, Event.standing?]

/-- How a registration that does not keep the encoder ends: with a new active
encoder for the codec, or without any. -/
structure Replaced (rack : Rack) (codec : Codec)
    (result : Registry × Rack × Except RegistryError Handle) : Prop where
  setup : rack.Setup result.2.1
  sound : result.1.Sound result.2.1
  installed : ∀ handle, result.2.2 = .ok handle →
    result.1.encoder? = some handle ∧ result.1.sendCodec = some codec
  failed : ∀ e, result.2.2 = .error e → result.1.active = none

/-- An accepted codec either keeps the encoder that already runs it or replaces
whatever is active. -/
theorem register_replaced {g : Registry} {rack : Rack} (codec : Codec) (cores : UInt32)
    (maxPayload : Nat) (hsound : g.Sound rack) (hfault : codec.fault? = none) :
    Replaced rack codec.clamped (g.register rack codec cores maxPayload) := by
  have hregisters := g.register_registers rack codec cores maxPayload
  generalize g.register rack codec cores maxPayload = result at hregisters ⊢
  cases hregisters with
  | invalid h => simp [h] at hfault
  | @kept a hactive hsame =>
      have hsend : g.sendCodec = some codec.clamped := by
        simp only [needsReset, Bool.or_eq_false_iff] at hsame
        simpa using hsame.1.1.2
      have hlog : ∀ e ∈ ([.log .encoderKept] : List Event), e.Routine := by
        simp [Event.Routine]
      exact
        { setup := rack.setup_log _ (by simp)
          sound := hsound.of_alike (rack.note_alike _) rfl hlog
          installed := by simp [encoder?, hactive, hsend]
          failed := by simp }
  | missing _ hsetup _ _ => exact ⟨hsetup, hsound.vacated hsetup, by simp, fun _ _ => rfl⟩
  | failed _ hsetup _ _ _ _ _ => exact ⟨hsetup, hsound.vacated hsetup, by simp, fun _ _ => rfl⟩
  | @installed rack' a _ hsetup fault hsupplies hbuilt hnative hjournal =>
      refine ⟨hsetup, ⟨?_, by simp, (hsound.vacated hsetup).attached⟩, by simp [encoder?], by simp⟩
      intro active hactive
      obtain rfl : a = active := Option.some.inj hactive
      refine ⟨hsound.supplied hsupplies hsetup hbuilt, hnative, codec.clamped, rfl, ?_⟩
      rw [hjournal, initialised?_initEntries]

/-- How a detachment ends: the active encoder is given up or stays, and the
answer says which. -/
structure Detached (g : Registry) (rack : Rack)
    (result : Registry × Rack × Except RegistryError Bool) : Prop where
  setup : rack.Setup result.2.1
  sound : result.1.Sound result.2.1
  dropped : result.2.2 = .ok true → result.1.active = none
  kept : result.2.2 ≠ .ok true →
    result.1.active = g.active ∧ result.1.sendCodec = g.sendCodec

theorem Sound.forget {g : Registry} {rack : Rack} (h : g.Sound rack) (payloadType : UInt8) :
    (g.forget payloadType).Sound rack where
  active := h.active
  idle := h.idle
  attached p a ha := by
    by_cases hp : p = payloadType
    · simp [Registry.forget, hp] at ha
    · exact h.attached p a (by simpa [Registry.forget, hp] using ha)

theorem detach_detached {g : Registry} {rack : Rack} (payloadType : UInt8)
    (hsound : g.Sound rack) : Detached g rack (g.detach rack payloadType) := by
  have hdetaches := g.detach_detaches rack payloadType
  have hforget := hsound.forget payloadType
  generalize g.detach rack payloadType = result at hdetaches ⊢
  cases hdetaches with
  | unknown _ => exact ⟨Rack.Setup.refl _, hsound, by simp, fun _ => ⟨rfl, rfl⟩⟩
  | unused _ _ => exact ⟨Rack.Setup.refl _, hforget, by simp, fun _ => ⟨rfl, rfl⟩⟩
  | used _ _ _ hsetup _ _ => exact ⟨hsetup, hforget.vacated hsetup, fun _ => rfl, by simp⟩

theorem Sound.attach {g : Registry} {rack rack' : Rack} (h : g.Sound rack)
    (hsetup : rack.Setup rack') (hjournal : rack'.journal = rack.journal)
    (payloadType : UInt8) (internalSource : Bool) {n : Nat} (hn : n < rack'.encoders.size) :
    (g.attach payloadType internalSource n).Sound rack' where
  active a ha := by
    obtain ⟨hlt, hnative, codec, hcodec, hinit⟩ := h.active a ha
    refine ⟨Nat.lt_of_lt_of_le hlt hsetup.size, ?_, codec, hcodec, by rwa [hjournal]⟩
    rw [hnative, hsetup.nativeInput _ hlt]
  idle := h.idle
  attached p a ha := by
    by_cases hp : p = payloadType
    · simp only [Registry.attach, if_pos hp, Option.some.injEq] at ha
      subst ha
      exact hn
    · simp only [Registry.attach, if_neg hp] at ha
      exact Nat.lt_of_lt_of_le (h.attached p a ha) hsetup.size

end Registry

end Simulcast
