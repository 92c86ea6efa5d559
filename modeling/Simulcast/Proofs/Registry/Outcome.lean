import Mathlib.Data.List.Basic
import Simulcast.Proofs.Encoder.Alike
import Simulcast.Registry.Basic

/-!
Everything a registration or a detachment can come to: what the registry is
afterwards, what was written into the journal, and what was answered. Nothing
else about the two is needed by those who follow the registry over a run.
-/

namespace Simulcast

/-- What a registry writes: calls that set encoders up or give them up, and
what came of them. -/
def Event.ByRegistry : Event → Prop
  | .called _ c | .answered _ c _ => ¬ c.Uses
  | .log (.registered _ _) => False
  | .log _ => True
  | _ => False

namespace Registry

/-- What is left of a registry that gives up its encoder. -/
def vacated (g : Registry) : Registry :=
  { g with active := none, sendCodec := none, stale := false }

/-- The entries of giving up the active encoder, if there is one. -/
def releaseEntries (active : Option ActiveEncoder) (fault : Option EncoderFault) : List Event :=
  match active with
  | none => []
  | some a =>
      (fault.map fun f => Event.log (.releaseFailed f)).toList ++
        [.answered a.handle.encoder .release fault, .called a.handle.encoder .release]

/-- The entries of setting up encoder `n`. -/
def initEntries (n : Nat) (codec : Codec) (cores : UInt32) (maxPayload : Nat)
    (fault : Option EncoderFault) : List Event :=
  [.answered n (.init codec cores maxPayload) fault, .called n (.init codec cores maxPayload),
    .answered n .connect none, .called n .connect]

/-- The encoder that `g` has for `codec`: the one attached to its payload type
as it was declared, else the next one that is built of its family, with an
internal source if it says so itself. -/
inductive Supplies (g : Registry) (rack : Rack) (codec : Codec) : ActiveEncoder → Prop where
  | attached {a : Attachment} (h : g.attachments codec.payloadType = some a)
      (nativeInput : Bool) :
      Supplies g rack codec
        ⟨⟨a.encoder, a.internalSource, nativeInput⟩, some codec.payloadType⟩
  | built {b : Blueprint} (h : g.attachments codec.payloadType = none)
      (hb : g.blueprints codec.kind = some b) (nativeInput : Bool) :
      Supplies g rack codec
        ⟨⟨(rack.build b).2, b.build.internalSource, nativeInput⟩, none⟩

/-- The registration does not find its encoder active already. -/
def Resets (g : Registry) (codec : Codec) (cores : UInt32) (maxPayload : Nat) : Prop :=
  ∀ a, g.active = some a → g.needsReset codec.clamped cores maxPayload = true

/-- What a registration comes to. -/
inductive Registers (g : Registry) (rack : Rack) (codec : Codec) (cores : UInt32)
    (maxPayload : Nat) : Registry × Rack × Except RegistryError Handle → Prop where
  | invalid {fault : CodecFault} (h : codec.fault? = some fault) :
      Registers g rack codec cores maxPayload (g, rack, .error (.invalidCodec fault))
  | kept {a : ActiveEncoder} (active : g.active = some a)
      (same : g.needsReset codec.clamped cores maxPayload = false) :
      Registers g rack codec cores maxPayload (g, rack.log .encoderKept, .ok a.handle)
  | missing {rack' : Rack} (resets : g.Resets codec cores maxPayload)
      (setup : rack.Setup rack') (fault : Option EncoderFault)
      (journal : rack'.journal = releaseEntries g.active fault ++ rack.journal) :
      Registers g rack codec cores maxPayload
        (g.vacated, rack', .error (.noEncoder codec.kind codec.payloadType))
  | failed {rack' : Rack} (resets : g.Resets codec cores maxPayload)
      (setup : rack.Setup rack') (fault : Option EncoderFault) (n : Nat) (name : String)
      (f : EncoderFault)
      (journal : rack'.journal =
        .log (.initFailed name codec.name f) ::
          (initEntries n codec.clamped cores maxPayload (some f) ++
            (releaseEntries g.active fault ++ rack.journal))) :
      Registers g rack codec cores maxPayload (g.vacated, rack', .error (.initFailed f))
  | installed {rack' : Rack} {a : ActiveEncoder} (resets : g.Resets codec cores maxPayload)
      (setup : rack.Setup rack') (fault : Option EncoderFault)
      (supplies : g.Supplies rack codec a)
      (built : a.attachedTo = none → a.handle.encoder < rack'.encoders.size)
      (native : a.handle.nativeInput = (rack'.encoder a.handle.encoder).nativeInput)
      (journal : rack'.journal =
        initEntries a.handle.encoder codec.clamped cores maxPayload none ++
          (releaseEntries g.active fault ++ rack.journal)) :
      Registers g rack codec cores maxPayload
        ({ g.vacated with
            active := some a
            sendCodec := some codec.clamped
            cores := cores
            maxPayload := maxPayload }, rack', .ok a.handle)

/-- What a detachment comes to. -/
inductive Detaches (g : Registry) (rack : Rack) (payloadType : UInt8) :
    Registry × Rack × Except RegistryError Bool → Prop where
  | unknown (h : g.attachments payloadType = none) :
      Detaches g rack payloadType (g, rack, .error (.unknownPayloadType payloadType))
  | unused (h : g.attachments payloadType ≠ none)
      (h' : ∀ a, g.active = some a → a.attachedTo ≠ some payloadType) :
      Detaches g rack payloadType (g.forget payloadType, rack, .ok false)
  | used {rack' : Rack} {a : ActiveEncoder} (h : g.attachments payloadType ≠ none)
      (active : g.active = some a) (attachedTo : a.attachedTo = some payloadType)
      (setup : rack.Setup rack') (fault : Option EncoderFault)
      (journal : rack'.journal = releaseEntries g.active fault ++ rack.journal) :
      Detaches g rack payloadType ((g.forget payloadType).vacated, rack', .ok true)

theorem releaseActive_vacated (g : Registry) (rack : Rack) :
    ({ (g.releaseActive rack).1 with sendCodec := none } : Registry) = g.vacated := by
  unfold releaseActive vacated
  cases h : g.active with
  | none => simp
  | some a => rfl

theorem releaseActive_rack (g : Registry) (rack : Rack) :
    rack.Setup (g.releaseActive rack).2 ∧
      (g.releaseActive rack).2.encoders.size = rack.encoders.size ∧
      ∃ fault, (g.releaseActive rack).2.journal =
        releaseEntries g.active fault ++ rack.journal := by
  cases hactive : g.active with
  | none =>
      have heq : (g.releaseActive rack).2 = rack := by simp [releaseActive, hactive]
      rw [heq]
      exact ⟨Rack.Setup.refl rack, rfl, none, rfl⟩
  | some a =>
      have hsetup := rack.setup_call a.handle.encoder (c := .release) id
      have hcall := rack.call_journal a.handle.encoder .release
      have hsize := rack.call_size a.handle.encoder .release
      cases hresult : rack.call a.handle.encoder .release with
      | mk rack' result =>
          rw [hresult] at hsetup hcall hsize
          cases result with
          | ok images =>
              have heq : (g.releaseActive rack).2 = rack' := by
                simp [releaseActive, hactive, hresult]
              rw [heq]
              exact ⟨hsetup, hsize, none, hcall⟩
          | error fault =>
              have heq : (g.releaseActive rack).2 = rack'.log (.releaseFailed fault) := by
                simp [releaseActive, hactive, hresult]
              rw [heq]
              refine ⟨hsetup.trans (rack'.setup_log _ (by simp)), hsize, some fault, ?_⟩
              rw [Rack.log, Rack.note, hcall]
              rfl

theorem connect_journal (rack : Rack) (n : Nat) :
    (rack.call n .connect).1.journal =
      .answered n .connect none :: .called n .connect :: rack.journal :=
  rfl

/-- What an installation comes to: the candidate is active, with its own answer
where nothing was declared, or nothing has changed but the journal. -/
theorem install_cases (g : Registry) (rack : Rack) (new : Candidate) (codec : Codec)
    (cores : UInt32) (maxPayload : Nat) :
    ∃ rack', rack.Setup rack' ∧
      ((rack'.journal = initEntries new.encoder codec cores maxPayload none ++ rack.journal ∧
          g.install rack new codec cores maxPayload =
            ({ g with
                active := some ⟨⟨new.encoder,
                  new.internalSource.getD (rack.encoder new.encoder).internalSource,
                  (rack'.encoder new.encoder).nativeInput⟩, new.attachedTo⟩
                sendCodec := some codec
                cores := cores
                maxPayload := maxPayload }, rack', .ok ⟨new.encoder,
                  new.internalSource.getD (rack.encoder new.encoder).internalSource,
                  (rack'.encoder new.encoder).nativeInput⟩)) ∨
        ∃ (name : String) (f : EncoderFault),
          rack'.journal =
              .log (.initFailed name codec.name f) ::
                (initEntries new.encoder codec cores maxPayload (some f) ++ rack.journal) ∧
            g.install rack new codec cores maxPayload = (g, rack', .error (.initFailed f))) := by
  have hconnected := connect_journal rack new.encoder
  have hmake := rack.call_sameMake new.encoder new.encoder .connect
  have hfirst := rack.setup_call new.encoder (c := .connect) id
  cases hconnect : rack.call new.encoder .connect with
  | mk connected _ =>
  rw [hconnect] at hconnected hmake hfirst
  have hjournal := connected.call_journal new.encoder (.init codec cores maxPayload)
  have hmake' := connected.call_sameMake new.encoder new.encoder (.init codec cores maxPayload)
  have hsecond := connected.setup_call new.encoder (c := .init codec cores maxPayload) id
  cases hinit : connected.call new.encoder (.init codec cores maxPayload) with
  | mk rack' result =>
  rw [hinit] at hjournal hmake' hsecond
  have hsource : (rack'.encoder new.encoder).internalSource =
      (rack.encoder new.encoder).internalSource :=
    hmake'.internalSource.trans hmake.internalSource
  have hentries : rack'.journal =
      initEntries new.encoder codec cores maxPayload (Rack.fault? result) ++ rack.journal := by
    rw [hjournal, hconnected]
    rfl
  cases result with
  | ok images =>
      refine ⟨rack', hfirst.trans hsecond, Or.inl ⟨hentries, ?_⟩⟩
      simp [install, hconnect, hinit, hsource]
  | error f =>
      refine ⟨rack'.log (.initFailed (rack'.encoder new.encoder).name codec.name f),
        (hfirst.trans hsecond).trans (rack'.setup_log _ (by simp)),
        Or.inr ⟨(rack'.encoder new.encoder).name, f, ?_, ?_⟩⟩
      · rw [Rack.log, Rack.note, hentries]
        rfl
      · simp [install, hconnect, hinit]

/-- The candidate is the encoder that the registry supplies. Finding it writes
nothing, but it may have to be built. -/
theorem candidate_supplies {g : Registry} {rack rack' : Rack} {codec : Codec} {new : Candidate}
    (h : g.candidate rack codec = some (rack', new)) :
    (∀ nativeInput, g.Supplies rack codec
        ⟨⟨new.encoder, new.internalSource.getD (rack'.encoder new.encoder).internalSource,
          nativeInput⟩, new.attachedTo⟩) ∧
      (new.attachedTo = none → new.encoder < rack'.encoders.size) ∧
      rack.Setup rack' ∧ rack'.journal = rack.journal := by
  unfold candidate at h
  split at h
  · rename_i a ha
    simp only [Option.some.injEq, Prod.mk.injEq] at h
    obtain ⟨rfl, rfl⟩ := h
    exact ⟨.attached ha, by simp, Rack.Setup.refl _, rfl⟩
  · rename_i hnone
    split at h
    · rename_i b hb
      simp only [Option.some.injEq, Prod.mk.injEq] at h
      obtain ⟨rfl, rfl⟩ := h
      have hbuilt : ((rack.build b).1.encoder (rack.build b).2).internalSource =
          b.build.internalSource := by
        simp [Rack.build, Rack.encoder, Array.getD_eq_getD_getElem?]
      refine ⟨fun nativeInput => ?_, by simp [Rack.build], rack.setup_build b, rfl⟩
      show g.Supplies rack codec
        ⟨⟨(rack.build b).2, ((rack.build b).1.encoder (rack.build b).2).internalSource,
          nativeInput⟩, none⟩
      rw [hbuilt]
      exact .built hnone hb nativeInput
    · simp at h

/-- Giving up the encoder in between makes no difference to what is supplied. -/
theorem Supplies.of_vacated {g : Registry} {rack rack' : Rack} {codec : Codec}
    {a : ActiveEncoder} (h : g.vacated.Supplies rack' codec.clamped a)
    (hsize : rack'.encoders.size = rack.encoders.size) : g.Supplies rack codec a := by
  cases h with
  | @attached a h nativeInput =>
      have hattached : g.attachments codec.payloadType = some a := h
      exact .attached hattached nativeInput
  | @built b h hb nativeInput =>
      have hnumber : (rack'.build b).2 = (rack.build b).2 := hsize
      rw [hnumber]
      have hnone : g.attachments codec.payloadType = none := h
      have hblueprint : g.blueprints codec.kind = some b := hb
      exact .built hnone hblueprint nativeInput

theorem replace_registers {g : Registry} (rack : Rack) (codec : Codec) (cores : UInt32)
    (maxPayload : Nat) (hresets : g.Resets codec cores maxPayload) :
    g.Registers rack codec cores maxPayload (g.replace rack codec.clamped cores maxPayload) := by
  obtain ⟨hreleased, hsize, fault, hjournal⟩ := g.releaseActive_rack rack
  have hvacated := g.releaseActive_vacated rack
  cases hrelease : g.releaseActive rack with
  | mk g' released =>
  rw [hrelease] at hreleased hsize hjournal hvacated
  cases hcandidate : g.vacated.candidate released codec.clamped with
  | none =>
      have heq : g.replace rack codec.clamped cores maxPayload =
          (g.vacated, released, .error (.noEncoder codec.kind codec.payloadType)) := by
        simp only [replace, hrelease, hvacated, hcandidate]
        rfl
      rw [heq]
      exact .missing hresets hreleased fault hjournal
  | some found =>
      obtain ⟨built, new⟩ := found
      have heq : g.replace rack codec.clamped cores maxPayload =
          g.vacated.install built new codec.clamped cores maxPayload := by
        simp only [replace, hrelease, hvacated, hcandidate]
      obtain ⟨hsupplies, hlt, hbuilt, hquiet⟩ := candidate_supplies hcandidate
      obtain ⟨rack', hinstalled, ⟨hnew, hinstall⟩ | ⟨name, f, hnew, hinstall⟩⟩ :=
        g.vacated.install_cases built new codec.clamped cores maxPayload
      · have hsetup := (hreleased.trans hbuilt).trans hinstalled
        rw [heq, hinstall]
        refine .installed hresets hsetup fault ((hsupplies _).of_vacated hsize) ?_ rfl ?_
        · exact fun hnone => Nat.lt_of_lt_of_le (hlt hnone) hinstalled.size
        · rw [hnew, hquiet, hjournal]
      · have hsetup := (hreleased.trans hbuilt).trans hinstalled
        rw [heq, hinstall]
        refine .failed hresets hsetup fault new.encoder name f ?_
        rw [hnew, hquiet, hjournal]
        rfl

theorem register_registers (g : Registry) (rack : Rack) (codec : Codec) (cores : UInt32)
    (maxPayload : Nat) :
    g.Registers rack codec cores maxPayload (g.register rack codec cores maxPayload) := by
  unfold register
  cases hfault : codec.fault? with
  | some fault => exact .invalid hfault
  | none =>
      cases hactive : g.active with
      | none =>
          apply replace_registers
          intro a ha
          simp [hactive] at ha
      | some a =>
          cases hreset : g.needsReset codec.clamped cores maxPayload with
          | true =>
              simp only [if_true]
              apply replace_registers
              intro _ _
              exact hreset
          | false =>
              exact .kept hactive hreset

theorem detach_detaches (g : Registry) (rack : Rack) (payloadType : UInt8) :
    g.Detaches rack payloadType (g.detach rack payloadType) := by
  unfold detach
  cases hattached : g.attachments payloadType with
  | none => exact .unknown hattached
  | some attached =>
      have hsome : g.attachments payloadType ≠ none := by simp [hattached]
      cases hserved : (g.forget payloadType).servedFrom payloadType with
      | false =>
          simp only [hserved]
          refine .unused hsome ?_
          intro a ha hto
          simp [servedFrom, forget, ha, hto] at hserved
      | true =>
          obtain ⟨hsetup, _, fault, hjournal⟩ := (g.forget payloadType).releaseActive_rack rack
          have hvacated := (g.forget payloadType).releaseActive_vacated rack
          cases hactive : g.active with
          | none => simp [servedFrom, forget, hactive] at hserved
          | some a =>
              have hto : a.attachedTo = some payloadType := by
                simpa [servedFrom, forget, hactive] using hserved
              cases hrelease : (g.forget payloadType).releaseActive rack with
              | mk g' released =>
                  rw [hrelease] at hsetup hjournal hvacated
                  simp only [hserved, if_true, hrelease, hvacated]
                  exact .used hsome hactive hto hsetup fault hjournal

theorem byRegistry_releaseEntries (active : Option ActiveEncoder) (fault : Option EncoderFault) :
    ∀ e ∈ releaseEntries active fault, e.ByRegistry := by
  cases active with
  | none => simp [releaseEntries]
  | some a => cases fault <;> simp [releaseEntries, Event.ByRegistry, EncoderCall.Uses]

theorem byRegistry_initEntries (n : Nat) (codec : Codec) (cores : UInt32) (maxPayload : Nat)
    (fault : Option EncoderFault) :
    ∀ e ∈ initEntries n codec cores maxPayload fault, e.ByRegistry := by
  simp [initEntries, Event.ByRegistry, EncoderCall.Uses]

theorem Registers.journal {g : Registry} {rack : Rack} {codec : Codec} {cores : UInt32}
    {maxPayload : Nat} {result : Registry × Rack × Except RegistryError Handle}
    (h : g.Registers rack codec cores maxPayload result) :
    ∃ new, result.2.1.journal = new ++ rack.journal ∧ ∀ e ∈ new, e.ByRegistry := by
  cases h with
  | invalid hinvalid => exact ⟨[], rfl, by simp⟩
  | kept hactive hsame => exact ⟨[.log .encoderKept], rfl, by simp [Event.ByRegistry]⟩
  | missing _ _ fault hjournal =>
      exact ⟨_, hjournal, byRegistry_releaseEntries g.active fault⟩
  | failed _ _ fault n name f hjournal =>
      have hinit := byRegistry_initEntries n codec.clamped cores maxPayload (some f)
      have hrelease := byRegistry_releaseEntries g.active fault
      refine ⟨.log (.initFailed name codec.name f) ::
        (initEntries n codec.clamped cores maxPayload (some f) ++
          releaseEntries g.active fault), by simp [hjournal], ?_⟩
      rw [List.forall_mem_cons, List.forall_mem_append]
      exact ⟨trivial, hinit, hrelease⟩
  | @installed _ a _ _ fault _ _ _ hjournal =>
      have hinit := byRegistry_initEntries a.handle.encoder codec.clamped cores maxPayload none
      have hrelease := byRegistry_releaseEntries g.active fault
      refine ⟨initEntries a.handle.encoder codec.clamped cores maxPayload none ++
        releaseEntries g.active fault, by simp [hjournal], ?_⟩
      rw [List.forall_mem_append]
      exact ⟨hinit, hrelease⟩

theorem Detaches.journal {g : Registry} {rack : Rack} {payloadType : UInt8}
    {result : Registry × Rack × Except RegistryError Bool}
    (h : g.Detaches rack payloadType result) :
    ∃ new, result.2.1.journal = new ++ rack.journal ∧ ∀ e ∈ new, e.ByRegistry := by
  cases h with
  | unknown hnone => exact ⟨[], rfl, by simp⟩
  | unused hsome hactive => exact ⟨[], rfl, by simp⟩
  | used _ _ _ _ fault hjournal => exact ⟨_, hjournal, byRegistry_releaseEntries g.active fault⟩

end Registry

end Simulcast
