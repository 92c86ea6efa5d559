import Simulcast.Proofs.Registry.Wired
import Simulcast.Proofs.Sender.Passage

/-!
The active encoder of a sender can deliver images. The registry connects it when
it is installed, and from then on it is only used until it is given up, whatever
calls, callbacks and instructions do.
-/

namespace Simulcast

/-- Whatever is attached in a stage is no basic encoder. -/
def EncoderStage.Synthetic : EncoderStage → Prop
  | .attach _ _ choice => choice.Synthetic
  | _ => True

namespace Sender

variable {s s' : Sender}

/-- The active encoder can deliver images, and no encoder is a basic one. -/
def Wired (s : Sender) : Prop := s.registry.Wired s.rack

theorem Stretch.wired {P : Event → Prop} {new : List Event} (h : Stretch P s s' new)
    (hwired : s.Wired) : s'.Wired := by
  unfold Wired
  rw [h.registry]
  exact Registry.Wired.of_alike hwired h.rack.encoder

theorem begin_wired (hwired : s.Wired) (c : Call) : (s.begin c).1.Wired := by
  rcases s.begin_cases c with ⟨i, _, hmarked⟩ | ⟨_, new, hbegin⟩
  · rw [hmarked]
    exact hwired
  · exact hbegin.toStretch.wired hwired

theorem encode_wired (hwired : s.Wired) (frame : Frame) (info : Option SideInfo) (copy : Plan) :
    (s.encode frame info copy).1.Wired := by
  obtain ⟨mid, new, hmid, _, ⟨hafter, _⟩ | ⟨hafter, _⟩⟩ := s.encode_end frame info copy
  · rw [hafter]
    exact hmid.wired hwired
  · rw [hafter]
    exact hmid.wired hwired

theorem pullKey_wired (hwired : s.Wired) (stream : Nat) : (s.pullKey stream).1.Wired := by
  rcases s.pullKey_end stream with
    heq | ⟨slot, mid, new, _, _, _, ⟨hmid, heq⟩ | ⟨hmid, heq, _⟩⟩
  · rw [heq]
    exact hwired
  · rw [heq]
    exact hmid.toStretch.wired hwired
  · rw [heq]
    exact hmid.toStretch.wired hwired

theorem pushRates_wired (hwired : s.Wired) (rates : RateParameters) :
    (s.pushRates rates).1.Wired := by
  rcases s.pushRates_end rates with ⟨_, heq⟩ | ⟨slot, new, _, hpush⟩
  · rw [heq]
    exact hwired
  · exact hpush.toStretch.wired hwired

theorem askRegistry_wired (hs : s.Coherent) (hwired : s.Wired) (codec : Codec) (cores : UInt32)
    (maxPayload : Nat) : (s.askRegistry codec cores maxPayload).1.Wired := by
  unfold askRegistry
  split
  · exact hwired
  · exact Registry.Wired.register hwired hs.registry codec cores maxPayload

theorem adopt_wired (hwired : s.Wired) (codec : Codec) (maxPayload : Nat) (handle : Handle) :
    (s.adopt codec maxPayload handle).Wired := by
  obtain ⟨hregistry, hencoders, _⟩ := s.adopt_end codec maxPayload handle
  unfold Wired
  rw [hregistry]
  exact Registry.Wired.of_encoders hwired hencoders

theorem register_wired (hs : s.Coherent) (hwired : s.Wired) (codec : Codec) (cores : UInt32)
    (maxPayload : Nat) : (s.register codec cores maxPayload).1.Wired := by
  have hasked := askRegistry_wired hs hwired codec cores maxPayload
  unfold register
  split
  · exact hwired
  · split <;> rename_i heq <;> rw [heq] at hasked
    · exact adopt_wired hasked codec maxPayload _
    · exact Registry.Wired.of_encoders hasked rfl

/-- A new encoder has a number of its own, so the active one is not touched. -/
theorem attach_wired (hs : s.Coherent) (hwired : s.Wired) (payloadType : UInt8)
    (internalSource : Bool) {choice : EncoderChoice} (hchoice : choice.Synthetic) :
    (s.attach payloadType internalSource choice).1.Wired := by
  unfold attach
  split
  · exact hwired
  · rename_i rack n hchosen
    refine Registry.Wired.attach hwired (hwired.synthetic.choose hchoice hchosen) ?_
      payloadType internalSource n
    intro a ha
    have hactive := (hs.registry.active a ha).1
    cases choice with
    | fresh b =>
        obtain ⟨rfl, _⟩ := Prod.mk.inj (Option.some.inj hchosen)
        exact s.rack.encoder_build_of_lt b _ hactive
    | existing m =>
        simp only [Rack.choose] at hchosen
        split at hchosen
        · obtain ⟨rfl, _⟩ := Prod.mk.inj (Option.some.inj hchosen)
          rfl
        · simp at hchosen

theorem detach_wired (hwired : s.Wired) (payloadType : UInt8) :
    (s.detach payloadType).1.Wired := by
  have hdetached := Registry.Wired.detach hwired payloadType
  simp only [detach]
  split <;> exact hdetached

theorem runStage_wired (hs : s.Coherent) (hwired : s.Wired) {stage : EncoderStage}
    (hstage : stage.Synthetic) : (s.runStage stage).1.Wired := by
  cases stage with
  | encode frame info copy => exact encode_wired hwired frame info copy
  | pullKey stream => exact pullKey_wired hwired stream
  | pushRates rates => exact pushRates_wired hwired rates
  | register codec cores maxPayload => exact register_wired hs hwired codec cores maxPayload
  | attach payloadType internalSource choice =>
      exact attach_wired hs hwired payloadType internalSource hstage
  | detach payloadType => exact detach_wired hwired payloadType
  | enableDropping on => exact Registry.Wired.of_encoders hwired rfl

end Sender

end Simulcast
