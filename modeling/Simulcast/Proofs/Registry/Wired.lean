import Simulcast.Proofs.Registry.Sound

/-!
Where the output of the active encoder goes. An encoder delivers images only
while it has a codec and somewhere to send them; both come with its installation,
and the codec goes when it is given up. Encoders may be installed again, under
another payload type or for another codec, and an installation may fail half
way. Through all of it the active encoder can deliver, at the resolution of the
send codec, as long as no encoder is a basic one.
-/

namespace Simulcast

/-- No encoder is a basic one. -/
def Rack.Synthetic (r : Rack) : Prop := ∀ n, (r.encoder n).basic = false

/-- Encoder `n` has somewhere to send its output, and it runs `codec`. -/
structure Rack.Connected (r : Rack) (n : Nat) (codec : Option Codec) : Prop where
  connected : (r.encoder n).connected = true
  codec : (r.encoder n).codec = codec

/-- If the choice is a new encoder, it will not be a basic one. -/
def EncoderChoice.Synthetic : EncoderChoice → Prop
  | .fresh blueprint => blueprint.basic = false
  | .existing _ => True

namespace Rack

theorem encoder_call (r : Rack) (n m : Nat) (c : EncoderCall) :
    (r.call n c).1.encoder m =
      if m = n ∧ n < r.encoders.size then ((r.encoder n).perform c).1 else r.encoder m :=
  (r.note (.called n c)).encoder_perform n m c

/-- An initialization that succeeds leaves the codec, and output goes where it
went. -/
theorem call_init_ok {r : Rack} {n : Nat} {codec : Codec} {cores : UInt32} {maxPayload : Nat}
    {images : List EncodedImage} (hn : n < r.encoders.size)
    (h : (r.call n (.init codec cores maxPayload)).2 = .ok images) :
    ((r.call n (.init codec cores maxPayload)).1.encoder n).codec = some codec ∧
      ((r.call n (.init codec cores maxPayload)).1.encoder n).connected =
        (r.encoder n).connected := by
  have hresult : ((r.encoder n).perform (.init codec cores maxPayload)).2 = .ok images := h
  rw [encoder_call, if_pos ⟨rfl, hn⟩]
  simp only [Encoder.perform] at hresult ⊢
  split at hresult
  · simp at hresult
  · exact ⟨rfl, rfl⟩

theorem Synthetic.call {r : Rack} (h : r.Synthetic) (n : Nat) (c : EncoderCall) :
    (r.call n c).1.Synthetic :=
  fun m => (r.call_sameMake n m c).basic.trans (h m)

theorem Synthetic.build {r : Rack} (h : r.Synthetic) {b : Blueprint} (hb : b.basic = false) :
    (r.build b).1.Synthetic := by
  intro n
  rw [encoder_build]
  split
  · simp [Blueprint.build, hb]
  · exact h n

theorem Synthetic.choose {r r' : Rack} (h : r.Synthetic) {choice : EncoderChoice} {n : Nat}
    (hchoice : choice.Synthetic) (hchosen : r.choose choice = some (r', n)) : r'.Synthetic := by
  cases choice with
  | fresh b =>
      obtain ⟨rfl, _⟩ := Prod.mk.inj (Option.some.inj hchosen)
      exact h.build hchoice
  | existing m =>
      simp only [Rack.choose] at hchosen
      split at hchosen
      · obtain ⟨rfl, _⟩ := Prod.mk.inj (Option.some.inj hchosen)
        exact h
      · simp at hchosen

end Rack

namespace Registry

/-- No encoder is a basic one, and none that is built will be. -/
structure Stocked (g : Registry) (rack : Rack) : Prop where
  synthetic : rack.Synthetic
  blueprints : ∀ kind b, g.blueprints kind = some b → b.basic = false

/-- The active encoder, if there is one, can deliver images. -/
structure Wired (g : Registry) (rack : Rack) : Prop extends g.Stocked rack where
  active : ∀ a, g.active = some a → rack.Connected a.handle.encoder g.sendCodec

variable {g : Registry} {rack rack' : Rack} {codec : Codec} {new : Candidate}

/-- All that matters of encoders is where their output goes and what they run. -/
theorem Wired.of_alike (h : g.Wired rack) (halike : ∀ n, (rack.encoder n).Alike (rack'.encoder n)) :
    g.Wired rack' where
  synthetic n := (halike n).basic.trans (h.synthetic n)
  blueprints := h.blueprints
  active a ha :=
    ⟨(halike _).connected.trans (h.active a ha).connected,
      (halike _).codec.trans (h.active a ha).codec⟩

theorem Wired.of_encoders (h : g.Wired rack) (hencoders : rack'.encoders = rack.encoders) :
    g.Wired rack' := by
  refine h.of_alike fun n => ?_
  simp only [Rack.encoder, hencoders]
  exact Encoder.Alike.refl _

theorem Stocked.wired_of_idle (h : g.Stocked rack) (hidle : g.active = none) : g.Wired rack :=
  ⟨h, fun a ha => by rw [hidle] at ha; cases ha⟩

theorem Stocked.releaseActive (h : g.Stocked rack) :
    g.vacated.Stocked (g.releaseActive rack).2 := by
  refine ⟨?_, h.blueprints⟩
  unfold Registry.releaseActive
  split
  · exact h.synthetic
  · rename_i a _
    have hreleased := h.synthetic.call a.handle.encoder .release
    dsimp only
    split
    · exact hreleased
    · exact hreleased

/-- Whether it is attached or has to be built, a candidate is on the rack. -/
theorem Stocked.candidate (h : g.Stocked rack) (hsound : g.Sound rack)
    (hcandidate : g.candidate rack codec = some (rack', new)) :
    g.Stocked rack' ∧ new.encoder < rack'.encoders.size := by
  unfold Registry.candidate at hcandidate
  split at hcandidate
  · rename_i attached hattached
    obtain ⟨rfl, rfl⟩ := Prod.mk.inj (Option.some.inj hcandidate)
    exact ⟨h, hsound.attached _ _ hattached⟩
  · split at hcandidate
    · rename_i b hb
      obtain ⟨rfl, rfl⟩ := Prod.mk.inj (Option.some.inj hcandidate)
      exact ⟨⟨h.synthetic.build (h.blueprints _ _ hb), h.blueprints⟩, by simp⟩
    · simp at hcandidate

/-- A candidate is told where its output goes before it is initialized, so if the
initialization succeeds there is nothing left to be done. -/
theorem Stocked.install (h : g.Stocked rack) (hidle : g.active = none)
    (hnew : new.encoder < rack.encoders.size) (codec : Codec) (cores : UInt32)
    (maxPayload : Nat) :
    (g.install rack new codec cores maxPayload).1.Wired
      (g.install rack new codec cores maxPayload).2.1 := by
  have hconnected : ((rack.call new.encoder .connect).1.encoder new.encoder).connected = true := by
    rw [Rack.encoder_call, if_pos ⟨rfl, hnew⟩]
    rfl
  have hsize := rack.call_size new.encoder .connect
  have hstocked := h.synthetic.call new.encoder .connect
  simp only [Registry.install]
  generalize (rack.call new.encoder .connect).1 = connected at hconnected hsize hstocked ⊢
  rw [← hsize] at hnew
  have hafter := hstocked.call new.encoder (.init codec cores maxPayload)
  split
  · exact Stocked.wired_of_idle ⟨hafter, h.blueprints⟩ hidle
  · rename_i hresult
    obtain ⟨hcodec, hsame⟩ := Rack.call_init_ok hnew hresult
    refine ⟨⟨hafter, h.blueprints⟩, ?_⟩
    intro a ha
    obtain rfl := Option.some.inj ha
    exact ⟨hsame.trans hconnected, hcodec⟩

theorem Wired.replace (h : g.Wired rack) (hsound : g.Sound rack) (codec : Codec) (cores : UInt32)
    (maxPayload : Nat) :
    (g.replace rack codec cores maxPayload).1.Wired
      (g.replace rack codec cores maxPayload).2.1 := by
  have hstocked := h.toStocked.releaseActive
  obtain ⟨hsetup, _⟩ := g.releaseActive_rack rack
  have hvacated := g.releaseActive_vacated rack
  simp only [Registry.replace, hvacated]
  split
  · exact hstocked.wired_of_idle rfl
  · rename_i rack' new hcandidate
    obtain ⟨hbuilt, hnew⟩ := hstocked.candidate (hsound.vacated hsetup) hcandidate
    exact hbuilt.install rfl hnew codec cores maxPayload

theorem Wired.register (h : g.Wired rack) (hsound : g.Sound rack) (codec : Codec) (cores : UInt32)
    (maxPayload : Nat) :
    (g.register rack codec cores maxPayload).1.Wired
      (g.register rack codec cores maxPayload).2.1 := by
  unfold Registry.register
  split
  · exact h
  · split
    · split
      · exact h.replace hsound _ cores maxPayload
      · exact h.of_encoders rfl
    · exact h.replace hsound _ cores maxPayload

theorem Wired.detach (h : g.Wired rack) (payloadType : UInt8) :
    (g.detach rack payloadType).1.Wired (g.detach rack payloadType).2.1 := by
  have hforgot : (g.forget payloadType).Wired rack := ⟨⟨h.synthetic, h.blueprints⟩, h.active⟩
  have hvacated := (g.forget payloadType).releaseActive_vacated rack
  unfold Registry.detach
  split
  · exact h
  · dsimp only
    split
    · rw [hvacated]
      exact hforgot.toStocked.releaseActive.wired_of_idle rfl
    · exact hforgot

/-- What is attached is used from the next registration on. -/
theorem Wired.attach (h : g.Wired rack) (hrack : rack'.Synthetic)
    (hsame : ∀ a, g.active = some a →
      rack'.encoder a.handle.encoder = rack.encoder a.handle.encoder)
    (payloadType : UInt8) (internalSource : Bool) (n : Nat) :
    (g.attach payloadType internalSource n).Wired rack' where
  synthetic := hrack
  blueprints := h.blueprints
  active a ha := by
    have hactive := h.active a ha
    exact ⟨by rw [hsame a ha, hactive.connected], by rw [hsame a ha]; exact hactive.codec⟩

end Registry

end Simulcast
