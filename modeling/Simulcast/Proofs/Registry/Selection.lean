import Mathlib.Data.List.Basic
import Simulcast.Proofs.Registry.Supply

/-!
Which encoder a registration gives, when it keeps the one before, and when a
detachment takes the active one away. All three are told by the calls made so
far: what they attached last, what could be built when the tenure began, and
what was attached since.
-/

namespace Simulcast

/-- Codecs that differ in their start bitrate only are served alike. -/
theorem Codec.same_of_clamped {c c' : Codec} (h : c.clamped = c'.clamped) :
    c.kind = c'.kind ∧ c.payloadType = c'.payloadType := by
  have hkind := congrArg Codec.kind h
  have hpayload := congrArg Codec.payloadType h
  exact ⟨hkind, hpayload⟩

namespace Station

/-- What a registration that gives `handle` has done after `calls`. -/
structure Selected (s : Station) (calls : List RegistryCall) (codec : Codec) (cores : UInt32)
    (maxPayload : Nat) (handle : Handle) : Prop where
  /-- The encoder given is the active one. -/
  reported : ((s.run calls).step (.register codec cores maxPayload)).registry.encoder? = some handle
  /-- An encoder attached to the payload type wins, as it was declared. -/
  attached : ∀ a, s.attached? calls codec.payloadType = some a →
    handle.encoder = a.encoder ∧ handle.internalSource = a.internalSource
  /-- Otherwise it was built, when its tenure began, by the blueprint there was
  for the family, and has an internal source if it says so itself. -/
  built : s.attached? calls codec.payloadType = none →
    ∃ (T : Tenure s (calls ++ [.register codec cores maxPayload])) (b : Blueprint),
      s.blueprint? T.before codec.kind = some b ∧
        handle.encoder = ((s.run T.before).rack.build b).2 ∧
        handle.internalSource = b.build.internalSource
  /-- It was active before and not a single call was made, exactly if the same
  was asked for and no encoder was attached to the payload type since. -/
  kept_iff : ((s.run calls).registry.encoder? = some handle ∧
      ∀ n c, .called n c ∉ (s.run calls).entries (.register codec cores maxPayload)) ↔
    (s.run calls).registry.sendCodec = some codec.clamped ∧
      (s.run calls).registry.cores = cores ∧ (s.run calls).registry.maxPayload = maxPayload ∧
      ∃ T : Tenure s calls, ¬ T.Attached codec.payloadType

/-- What detaching from a payload type does after `calls`. -/
structure Withdrawn (s : Station) (calls : List RegistryCall) (payloadType : UInt8) : Prop where
  /-- The active encoder is taken away exactly if its tenure began with the
  encoder that was attached to the payload type then. -/
  taken_iff : ((s.run calls).registry.detach (s.run calls).rack payloadType).2.2 = .ok true ↔
    ∃ T : Tenure s calls, T.codec.payloadType = payloadType ∧
      s.attached? T.before payloadType ≠ none
  gone : ((s.run calls).registry.detach (s.run calls).rack payloadType).2.2 = .ok true →
    ((s.run calls).step (.detach payloadType)).registry.encoder? = none ∧
      ((s.run calls).step (.detach payloadType)).registry.sendCodec = none ∧
      (s.run calls).Closes (.detach payloadType)
  stays : ((s.run calls).registry.detach (s.run calls).rack payloadType).2.2 ≠ .ok true →
    ((s.run calls).step (.detach payloadType)).registry.encoder? =
        (s.run calls).registry.encoder? ∧
      ((s.run calls).step (.detach payloadType)).registry.sendCodec =
        (s.run calls).registry.sendCodec ∧
      (s.run calls).entries (.detach payloadType) = []
  /-- Nothing is attached to the payload type any more. -/
  detached : ((s.run calls).step (.detach payloadType)).registry.attachments payloadType = none

variable {s t : Station} {calls : List RegistryCall} {codec : Codec} {cores : UInt32}
  {maxPayload : Nat} {handle : Handle} {a : ActiveEncoder}

/-- The encoder that is active is kept, and nothing is called. -/
structure Keeps (t : Station) (codec : Codec) (cores : UInt32) (maxPayload : Nat)
    (a : ActiveEncoder) : Prop where
  active : t.registry.active = some a
  same : t.registry.needsReset codec.clamped cores maxPayload = false
  registry : (t.step (.register codec cores maxPayload)).registry = t.registry
  entries : t.entries (.register codec cores maxPayload) = [.log .encoderKept]

/-- Another encoder is initialised. -/
structure Renews (t : Station) (codec : Codec) (cores : UInt32) (maxPayload : Nat)
    (a : ActiveEncoder) : Prop where
  resets : t.registry.Resets codec cores maxPayload
  supplies : t.registry.Supplies t.rack codec a
  active : (t.step (.register codec cores maxPayload)).registry.active = some a
  called : .called a.handle.encoder (.init codec.clamped cores maxPayload) ∈
    t.entries (.register codec cores maxPayload)
  opens : t.Opens (.register codec cores maxPayload)

theorem register_ok
    (h : (t.registry.register t.rack codec cores maxPayload).2.2 = .ok handle) :
    ∃ a : ActiveEncoder, a.handle = handle ∧
      (t.Keeps codec cores maxPayload a ∨ t.Renews codec cores maxPayload a) := by
  have hregisters := t.registry.register_registers t.rack codec cores maxPayload
  have hstep := t.step_register codec cores maxPayload
  generalize t.registry.register t.rack codec cores maxPayload = result at h hregisters hstep
  cases hregisters with
  | invalid _ => simp at h
  | missing _ _ _ _ => simp at h
  | failed _ _ _ _ _ _ _ => simp at h
  | @kept a hactive hsame =>
      refine ⟨a, Except.ok.inj h, Or.inl ⟨hactive, hsame, by rw [hstep], ?_⟩⟩
      apply entries_eq
      rw [hstep]
      rfl
  | @installed rack' a hresets _ fault hsupplies _ _ hjournal =>
      rw [← List.append_assoc] at hjournal
      have hentries : t.entries (.register codec cores maxPayload) =
          Registry.initEntries a.handle.encoder codec.clamped cores maxPayload none ++
            Registry.releaseEntries t.registry.active fault := by
        apply entries_eq
        rw [hstep, hjournal]
      refine ⟨a, Except.ok.inj h, Or.inr ⟨hresets, hsupplies, by rw [hstep], ?_, ?_⟩⟩
      · rw [hentries]
        simp [Registry.initEntries]
      · refine ⟨a.handle.encoder, ?_⟩
        rw [hentries]
        simp [Registry.initEntries]

theorem needsReset_eq_false_iff (g : Registry) :
    g.needsReset codec cores maxPayload = false ↔
      g.stale = false ∧ g.sendCodec = some codec ∧ g.cores = cores ∧ g.maxPayload = maxPayload := by
  simp [Registry.needsReset, and_assoc]

/-- An encoder kept goes back to a tenure that began with the same codec. -/
theorem Keeps.tenure (h : (s.run calls).Keeps codec cores maxPayload a) (T : Tenure s calls) :
    T.codec.clamped = codec.clamped ∧ ¬ T.Attached codec.payloadType ∧
      (s.run T.before).registry.Supplies (s.run T.before).rack T.codec a ∧
      s.attached? calls codec.payloadType =
        a.attachedTo.map fun _ => ⟨a.handle.encoder, a.handle.internalSource⟩ := by
  rw [← attachments_run]
  obtain ⟨hstale, hcodec, _, _⟩ := (needsReset_eq_false_iff _).mp h.same
  obtain ⟨a', hsupplies, hholds⟩ := T.holds
  have ha : a' = a := Option.some.inj (hholds.active.symm.trans h.active)
  subst ha
  have hclamped : T.codec.clamped = codec.clamped :=
    Option.some.inj (hholds.sendCodec.symm.trans hcodec)
  have hpayload := (Codec.same_of_clamped hclamped).2
  refine ⟨hclamped, ?_, hsupplies, ?_⟩
  · rw [← hpayload, ← hholds.stale, hstale]
    simp
  · have hcurrent := hholds.current hstale
    rwa [hclamped] at hcurrent

theorem Keeps.not_closes (h : t.Keeps codec cores maxPayload a) :
    ¬ t.Closes (.register codec cores maxPayload) := by
  rintro ⟨n, hn⟩
  rw [h.entries] at hn
  simp at hn

theorem Keeps.selected (h : (s.run calls).Keeps codec cores maxPayload a) (T : Tenure s calls) :
    Selected s calls codec cores maxPayload a.handle := by
  obtain ⟨hclamped, hunattached, hsupplies, hcurrent⟩ := h.tenure T
  have hencoder : (s.run calls).registry.encoder? = some a.handle := by
    simp [Registry.encoder?, h.active]
  obtain ⟨_, hcodec, hcores, hpayload⟩ := (needsReset_eq_false_iff _).mp h.same
  refine ⟨?_, ?_, ?_, ?_⟩
  · rw [h.registry, hencoder]
  · intro x hx
    rw [hcurrent] at hx
    obtain ⟨_, _, rfl⟩ := Option.map_eq_some_iff.mp hx
    exact ⟨rfl, rfl⟩
  · intro hnone
    have hbuilt : a.attachedTo = none := by simpa [hcurrent] using hnone
    have hkind := (Codec.same_of_clamped hclamped).1
    refine ⟨T.extend h.not_closes, ?_⟩
    cases hsupplies with
    | attached _ nativeInput => simp at hbuilt
    | @built b _ hb nativeInput =>
        rw [blueprints_run, hkind] at hb
        exact ⟨b, hb, rfl, rfl⟩
  · constructor
    · intro _
      exact ⟨hcodec, hcores, hpayload, T, hunattached⟩
    · intro _
      refine ⟨hencoder, fun n c hn => ?_⟩
      rw [h.entries] at hn
      simp at hn

theorem Renews.selected (h : (s.run calls).Renews codec cores maxPayload a) :
    Selected s calls codec cores maxPayload a.handle := by
  refine ⟨?_, ?_, ?_, ?_⟩
  · rw [Registry.encoder?, h.active]
    rfl
  · intro x hx
    rw [← attachments_run] at hx
    cases h.supplies with
    | @attached y hy nativeInput =>
        obtain rfl : y = x := Option.some.inj (hy.symm.trans hx)
        exact ⟨rfl, rfl⟩
    | built hnone _ nativeInput => simp [hnone] at hx
  · intro hnone
    rw [← attachments_run] at hnone
    cases h.supplies with
    | attached hy nativeInput => simp [hy] at hnone
    | @built b _ hb nativeInput =>
        rw [blueprints_run] at hb
        exact ⟨.opened h.opens, b, hb, rfl, rfl⟩
  · constructor
    · rintro ⟨_, hcalls⟩
      exact absurd h.called (hcalls _ _)
    · -- The encoder would not have had to be renewed.
      rintro ⟨hcodec, hcores, hpayload, T, hunattached⟩
      obtain ⟨a', _, hholds⟩ := T.holds
      have hclamped : T.codec.clamped = codec.clamped :=
        Option.some.inj (hholds.sendCodec.symm.trans hcodec)
      have hsame := (Codec.same_of_clamped hclamped).2
      have hstale : (s.run calls).registry.stale = false := by
        rw [← Bool.not_eq_true, hholds.stale, hsame]
        exact hunattached
      have hreset := h.resets a' hholds.active
      rw [(needsReset_eq_false_iff _).mpr ⟨hstale, hcodec, hcores, hpayload⟩] at hreset
      simp at hreset

/-- The active encoder came from a payload type exactly if something was
attached there when its tenure began. -/
theorem Tenure.attachedTo_iff (T : Tenure s calls) {payloadType : UInt8}
    (hactive : (s.run calls).registry.active = some a) :
    a.attachedTo = some payloadType ↔
      T.codec.payloadType = payloadType ∧ s.attached? T.before payloadType ≠ none := by
  rw [← attachments_run]
  obtain ⟨a', hsupplies, hholds⟩ := T.holds
  obtain rfl : a' = a := Option.some.inj (hholds.active.symm.trans hactive)
  cases hsupplies with
  | attached h nativeInput =>
      simp only [Option.some.injEq]
      constructor
      · rintro rfl
        exact ⟨rfl, by simp [h]⟩
      · exact And.left
  | built h hb nativeInput =>
      simp only [reduceCtorEq, false_iff, not_and, not_not]
      rintro rfl
      exact h

/-- What was attached when the tenure began is still the encoder's own, even if
it was replaced by another one since. -/
theorem Tenure.own (T : Tenure s calls) {payloadType : UInt8}
    (hpayload : T.codec.payloadType = payloadType)
    (hsome : s.attached? T.before payloadType ≠ none) :
    ∃ a, (s.run calls).registry.active = some a ∧ a.attachedTo = some payloadType ∧
      (s.run calls).registry.attachments payloadType ≠ none := by
  obtain ⟨a, _, hholds⟩ := T.holds
  have hto := (T.attachedTo_iff hholds.active).mpr ⟨hpayload, hsome⟩
  exact ⟨a, hholds.active, hto, (hholds.own payloadType hto).2⟩

theorem detach_withdrawn
    (htenure : (s.run calls).registry.active ≠ none → Nonempty (Tenure s calls))
    (payloadType : UInt8) : Withdrawn s calls payloadType := by
  have hdetaches := (s.run calls).registry.detach_detaches (s.run calls).rack payloadType
  have hstep := (s.run calls).step_detach payloadType
  generalize hresult : (s.run calls).registry.detach (s.run calls).rack payloadType = result
    at hdetaches hstep
  cases hdetaches with
  | unknown hnone =>
      have hentries : (s.run calls).entries (.detach payloadType) = [] :=
        entries_eq (by rw [hstep]; rfl)
      refine ⟨?_, by simp [hresult], fun _ => ⟨by rw [hstep], by rw [hstep], hentries⟩, ?_⟩
      · rw [hresult]
        constructor
        · simp
        · rintro ⟨T, hpayload, hsome⟩
          obtain ⟨_, _, _, hstill⟩ := T.own hpayload hsome
          exact absurd hnone hstill
      · rw [hstep]
        exact hnone
  | unused _ hother =>
      have hentries : (s.run calls).entries (.detach payloadType) = [] :=
        entries_eq (by rw [hstep]; rfl)
      refine ⟨?_, by simp [hresult], fun _ => ⟨by rw [hstep]; rfl, by rw [hstep]; rfl, hentries⟩,
        ?_⟩
      · rw [hresult]
        constructor
        · simp
        · rintro ⟨T, hpayload, hsome⟩
          obtain ⟨a, hactive, hto, _⟩ := T.own hpayload hsome
          exact absurd hto (hother a hactive)
      · rw [hstep]
        exact if_pos rfl
  | @used rack' a _ hactive hto _ fault hjournal =>
      have hcloses : (s.run calls).Closes (.detach payloadType) := by
        have hwritten : ((s.run calls).step (.detach payloadType)).rack.journal =
            [] ++ (Registry.releaseEntries (s.run calls).registry.active fault ++
              (s.run calls).rack.journal) := by
          rw [hstep]
          exact hjournal
        exact closes_of_releaseEntries hwritten hactive
      refine ⟨?_, fun _ => ⟨by rw [hstep]; rfl, by rw [hstep]; rfl, hcloses⟩,
        fun hno => absurd (by rw [hresult]) hno, ?_⟩
      · obtain ⟨T⟩ := htenure (by simp [hactive])
        rw [hresult]
        constructor
        · intro _
          exact ⟨T, (T.attachedTo_iff hactive).mp hto⟩
        · simp
      · rw [hstep]
        exact if_pos rfl

/-- After any calls on a registry, every registration that succeeds gives the
encoder that is to serve the codec and is kept exactly if nothing changed for
it, and every detachment takes away exactly the encoder it concerns. There is
never more than one tenure that these could be about. -/
theorem selection_exact (encoders : Array Encoder) (calls : List RegistryCall) :
    (∀ codec cores maxPayload handle,
      (((start encoders).run calls).registry.register ((start encoders).run calls).rack codec
        cores maxPayload).2.2 = .ok handle →
      Selected (start encoders) calls codec cores maxPayload handle) ∧
    (∀ payloadType, Withdrawn (start encoders) calls payloadType) ∧
    ∀ T T' : Tenure (start encoders) calls, T.before = T'.before := by
  have htenure := exists_tenure encoders calls
  refine ⟨?_, detach_withdrawn htenure, Tenure.before_eq⟩
  intro codec cores maxPayload handle h
  obtain ⟨a, rfl, hkeeps | hrenews⟩ := register_ok h
  · obtain ⟨T⟩ := htenure (by simp [hkeeps.active])
    exact hkeeps.selected T
  · exact hrenews.selected

/-- The blueprint is replaced while an encoder built by it is active. -/
def overhauled : List RegistryCall :=
  [.setBlueprint .generic {}, .register {} 1 1200, .setBlueprint .generic { internalSource := true }]

/-- The same codec is still served by the encoder of the first blueprint. -/
theorem selection_exact_overhauled :
    (((start #[]).run overhauled).registry.register ((start #[]).run overhauled).rack {} 1
        1200).2.2 = .ok ⟨0, false, false⟩ ∧
      Selected (start #[]) overhauled {} 1 1200 ⟨0, false, false⟩ := by
  have hok : (((start #[]).run overhauled).registry.register ((start #[]).run overhauled).rack {}
      1 1200).2.2 = .ok ⟨0, false, false⟩ := by decide +kernel
  exact ⟨hok, (selection_exact #[] overhauled).1 {} 1 1200 ⟨0, false, false⟩ hok⟩

end Station

end Simulcast
