import Mathlib.Data.List.Basic
import Simulcast.Proofs.Traffic.Copies

/-!
Which calls reach an encoder in use, over whole runs. A call is made on the
active encoder only, while it runs the codec it was initialised with, and what
is handed over fits that codec. It makes no difference which calls failed
before, or how old the copy of the plan is that a submission works on.
-/

namespace Simulcast

/-- What a call hands over can be used by an encoder that was installed as
`handle` for `codec`. -/
def EncoderCall.Suits (handle : Handle) (codec : Codec) : EncoderCall → Prop
  | .encode frame _ _ =>
      frame.resolution = codec.resolution ∧
        (frame.picture.isNative = true → handle.nativeInput = true)
  | .request _ => handle.internalSource = true
  | _ => True

/-- The frame kinds of a call are one for every stream of `codec`. -/
def EncoderCall.Covers (codec : Codec) : EncoderCall → Prop
  | .encode _ kinds _ | .request kinds => kinds.length = codec.streamCount
  | _ => True

/-- A readable frame has the resolution of the original, and it still lies in
native memory only if the encoder was installed as one that reads it. -/
theorem Sender.readable_suits {handle : Handle} {frame f : Frame}
    (h : readable handle frame = .ok f) :
    f.resolution = frame.resolution ∧
      (f.picture.isNative = true → handle.nativeInput = true) := by
  unfold readable at h
  split at h
  · -- A copy was made, which is always planar.
    unfold Frame.toPlanar at h
    cases hcopy : frame.picture.toPlanar with
    | error fault => simp [hcopy] at h
    | ok image =>
        simp only [hcopy, Except.ok.injEq] at h
        subst h
        refine ⟨?_, by simp [Picture.isNative]⟩
        show image.resolution = frame.picture.resolution
        cases hpicture : frame.picture with
        | planar original =>
            simp only [hpicture, Picture.toPlanar, Except.ok.injEq] at hcopy
            rw [← hcopy]
            rfl
        | mapped resolution data layout =>
            simp only [hpicture, Picture.toPlanar] at hcopy
            split at hcopy
            · simp at hcopy
            · split at hcopy
              · simp only [Except.ok.injEq] at hcopy
                rw [← hcopy]
                rfl
              · simp at hcopy
              · simp at hcopy
        | unreadable resolution reasons => simp [hpicture, Picture.toPlanar] at hcopy
  · rename_i hasis
    simp only [Except.ok.injEq] at h
    subst h
    exact ⟨rfl, fun hnative => by simpa [hnative] using hasis⟩

/-- Encoder `n` is the active one of `g`, installed as `handle` with the
capability it has. By `journal` its last successful initialisation was for
`codec`, and no release came after it. -/
structure Registry.Runs (g : Registry) (rack : Rack) (journal : List Event) (n : Nat)
    (handle : Handle) (codec : Codec) : Prop where
  active : g.encoder? = some handle
  number : handle.encoder = n
  initialised : initialised? n journal = some codec
  nativeInput : handle.nativeInput = (rack.encoder n).nativeInput

namespace Sender

variable {s t s' : Sender} {covered : Prop}

/-- The encoder in the slot runs the codec that the sender remembers. -/
theorem Coherent.runs (hs : s.Coherent) {handle : Handle} (hslot : s.slot = some handle) :
    ∃ codec, s.codec = some codec ∧ s.registry.sendCodec = some codec.clamped ∧
      s.registry.Runs s.rack s.rack.journal handle.encoder handle codec.clamped := by
  have hencoder : s.registry.encoder? = some handle := hs.slot.symm.trans hslot
  obtain ⟨active, hactive, rfl⟩ := Option.map_eq_some_iff.mp hencoder
  obtain ⟨_, hnative, sendCodec, hsend, hinit⟩ := hs.registry.active active hactive
  obtain ⟨codec, hcodec, hclamped⟩ := hs.serving active.handle hslot
  have hsame : sendCodec = codec.clamped := by
    rw [hsend, Option.some.injEq] at hclamped
    exact hclamped
  subst hsame
  exact ⟨codec, hcodec, hclamped, hencoder, rfl, hinit, hnative⟩

/-- Every call made between `s` and `s'` on an encoder in use is made on the
active encoder, while it runs a codec the call suits. The registry is the same
before and after, so it is the same during the call. If `covered` holds, the
frame kinds are also right in number. -/
def SafeCalls (s s' : Sender) (covered : Prop) : Prop :=
  ∃ new, s'.rack.journal = new ++ s.rack.journal ∧
    ∀ later n c earlier, new = later ++ .called n c :: earlier → c.Uses →
      s'.registry = s.registry ∧
        ∃ handle codec,
          s.registry.Runs s.rack (earlier ++ s.rack.journal) n handle codec ∧
          c.Suits handle codec ∧ (covered → c.Covers codec)

/-- The calls from `C` suit the codec that is registered. -/
def Suiting (s : Sender) (covered : Prop) (C : EncoderCall → Prop) : Prop :=
  ∀ c handle codec, C c → s.slot = some handle → s.codec = some codec →
    s.registry.sendCodec = some codec.clamped →
    c.Suits handle codec.clamped ∧ (covered → c.Covers codec.clamped)

theorem SafeCalls.of_no_use {new : List Event}
    (hjournal : s'.rack.journal = new ++ s.rack.journal)
    (hnew : ∀ n c, .called n c ∈ new → ¬ c.Uses) : s.SafeCalls s' covered := by
  refine ⟨new, hjournal, ?_⟩
  intro later n c earlier heq huse
  exact absurd huse (hnew n c (by simp [heq]))

theorem SafeCalls.of_unregistered (h : s.Unregistered s') : s.SafeCalls s' covered := by
  obtain ⟨new, hjournal, hnew⟩ := h.journal
  exact .of_no_use hjournal fun _ _ hmem => hnew _ hmem

theorem SafeCalls.of_registered {codec : Codec} {maxPayload : Nat}
    (h : s.Registered s' codec maxPayload) : s.SafeCalls s' covered := by
  obtain ⟨new, hjournal, _, hnew⟩ := h.journal
  refine .of_no_use hjournal ?_
  intro n c hmem
  rcases hnew _ hmem with hsetup | heq
  · exact hsetup
  · simp at heq

theorem SafeCalls.after {first : List Event} (hfirst : Stretch Event.Beside s t first)
    (h : t.SafeCalls s' covered) : s.SafeCalls s' covered := by
  obtain ⟨new, hjournal, hsafe⟩ := h
  refine ⟨new ++ first, by rw [hjournal, hfirst.journal, List.append_assoc], ?_⟩
  intro later n c earlier heq huse
  obtain ⟨others, hnew, rfl⟩ := split_of_beside hfirst.entries heq
  obtain ⟨hregistry, handle, codec, hruns, hrest⟩ := hsafe later n c others hnew huse
  refine ⟨hregistry.trans hfirst.registry, handle, codec, ?_, hrest⟩
  exact
    { active := hfirst.registry ▸ hruns.active
      number := hruns.number
      initialised := by
        rw [List.append_assoc, ← hfirst.journal]
        exact hruns.initialised
      nativeInput := by rw [hruns.nativeInput, (hfirst.rack.encoder n).nativeInput] }

theorem Stretch.safeCalls {C : EncoderCall → Prop} {new : List Event}
    (h : Stretch (Event.Using s.slot C) s s' new) (hs : s.Coherent)
    (hsuits : s.Suiting covered C) : s.SafeCalls s' covered := by
  refine ⟨new, h.journal, ?_⟩
  intro later n c earlier heq _
  have hmem : Event.called n c ∈ new := by simp [heq]
  obtain ⟨_, hc, hnumber⟩ := h.entries _ hmem
  obtain ⟨handle, hslot, rfl⟩ := Option.map_eq_some_iff.mp hnumber
  obtain ⟨codec, hcodec, hclamped, hruns⟩ := hs.runs hslot
  have hearlier : ∀ e ∈ earlier, e.Routine := fun e he =>
    (h.entries e (by simp [heq, he])).routine
  refine ⟨h.registry, handle, codec.clamped, ⟨hruns.active, rfl, ?_, hruns.nativeInput⟩,
    hsuits c handle codec hc hslot hcodec hclamped⟩
  rw [initialised?_of_routine hearlier, hruns.initialised]

/-- Calls that suit the registered codec are safe along every passage. -/
theorem Passage.safeCalls {C : EncoderCall → Prop} (h : Passage C s s') (hs : s.Coherent)
    (hsuits : s.Suiting covered C) : s.SafeCalls s' covered := by
  induction h with
  | stretch h => exact h.safeCalls hs hsuits
  | settled h _ carried => exact h.safeCalls hs hsuits
  | served h _ _ i => exact h.safeCalls hs hsuits
  | registered h _ => exact .of_registered h
  | unregistered h _ => exact .of_unregistered h
  | after h _ ih =>
      refine .after h (ih (h.coherent (fun _ he => he.routine) hs) ?_)
      intro c handle codec hc hslot hcodec hsend
      rw [h.slot] at hslot
      rw [h.codec] at hcodec
      rw [h.registry] at hsend
      exact hsuits c handle codec hc hslot hcodec hsend
  | marked i _ ih => exact ih (hs.storeSchedule _ (by simp) (by simp)) hsuits

/-- What a stage calls suits the registered codec. Only an encode call depends
on a copy of the plan. -/
theorem stageCall_suits (hs : s.Coherent) (stage : EncoderStage)
    (hcovered : ∀ frame info copy, stage = .encode frame info copy → covered →
      (s.currentPlan copy).schedule.size = s.plan.schedule.size) :
    s.Suiting covered (s.StageCall stage) := by
  intro c handle codec hc hslot hcodec hsend
  cases stage with
  | encode frame info copy =>
      obtain ⟨slot, hslot', hcall⟩ := hc
      rw [hslot, Option.some.injEq] at hslot'
      subst hslot'
      cases c with
      | encode f kinds i =>
          obtain ⟨hreadable, haccepts, hkinds, _, _⟩ := hcall
          obtain ⟨hresolution, hnative⟩ := readable_suits hreadable
          have hfits : codec.clamped.resolution = frame.resolution := by
            simpa [Registry.accepts, hsend] using haccepts
          refine ⟨⟨hresolution.trans hfits.symm, hnative⟩, fun h => ?_⟩
          show kinds.length = codec.streamCount
          rw [hkinds, ← hs.kinds_length hcodec]
          exact hcovered frame info copy rfl h
      | skip => exact ⟨trivial, fun _ => trivial⟩
      | configure rates => exact ⟨trivial, fun _ => trivial⟩
      | _ => exact hcall.elim
  | pullKey stream =>
      obtain ⟨slot, hslot', hsource, rfl⟩ := hc
      rw [hslot, Option.some.injEq] at hslot'
      subst hslot'
      refine ⟨hsource, fun _ => ?_⟩
      show s.plan.schedule.kinds.length = codec.streamCount
      exact hs.kinds_length hcodec
  | pushRates rates =>
      subst hc
      exact ⟨trivial, fun _ => trivial⟩
  | _ => exact hc.elim

theorem actionCall_suits (hs : s.Coherent) (a : Action) :
    s.Suiting covered (s.ActionCall a) := by
  rintro c handle codec ⟨call, rfl, stage, hstage, hc⟩ hslot hcodec hsend
  obtain ⟨hregistry, hsameSlot, hsameCodec⟩ := s.begin_slot call
  refine stageCall_suits (begin_coherent hs call) stage ?_ c handle codec hc
    (hsameSlot.trans hslot) (hsameCodec.trans hcodec) (by rw [hregistry, hsend])
  rintro frame info copy rfl _
  obtain ⟨_, hcopy, hsame⟩ := begin_encode hstage
  rw [hsame, hcopy, currentPlan, if_pos rfl]

end Sender

namespace Traffic

/-- Fewer than `UInt64.size` codecs were registered between the beginning of the
call that goes on and now. Beyond that the generation of a schedule, which
counts registrations in 64 bits, may be that of an old copy again. -/
def Recent (t : Traffic) (moves : List Move) : Move → Prop
  | .proceed n => ∀ stamp, (t.stamps moves)[n]? = some stamp →
      registrations (t.run moves).sender.rack.journal < stamp + UInt64.size
  | _ => True

theorem currentPlan_size {s : Sender} (hs : s.Coherent) {stamp : Nat} {copy : Plan}
    (h : s.Took stamp copy) (hrecent : registrations s.rack.journal < stamp + UInt64.size) :
    (s.currentPlan copy).schedule.size = s.plan.schedule.size := by
  unfold Sender.currentPlan
  split
  · rename_i hgeneration
    exact h.size ((h.stamp_eq hs hrecent).mp hgeneration).symm
  · rfl

/-- Over any run of any number of threads, every call on an encoder in use
reaches the active encoder while it runs the codec it was initialised with,
with a frame of that codec's resolution, in native memory only if the encoder
reads it, and with one frame kind per stream as long as generations have not
gone around. -/
theorem calls_safe {s : Sender} (hs : s.Fresh) (moves : List Move) (move : Move) :
    (run { sender := s } moves).sender.SafeCalls
      ((run { sender := s } moves).step move).sender
      (Recent { sender := s } moves move) := by
  have hcoherent : (run { sender := s } moves).sender.Coherent :=
    run_coherent hs.coherent moves
  refine (step_passage hcoherent move).safeCalls hcoherent ?_
  cases move with
  | enter c => exact fun _ _ _ hc => hc.elim
  | proceed n =>
      rintro c handle codec ⟨progress, hleg, stage, rfl, hc⟩
      refine Sender.stageCall_suits hcoherent stage ?_ c handle codec hc
      rintro frame info copy rfl hrecent
      have hstamped := run_stamped hs.coherent moves
      have hlt : n < (stamps { sender := s } moves).length := by
        rw [hstamped.length]
        exact (List.getElem?_eq_some_iff.mp hleg).1
      have hstamp := List.getElem?_eq_getElem hlt
      exact currentPlan_size hcoherent (hstamped.took n _ frame info copy hstamp hleg)
        (hrecent _ hstamp)
  | follow i =>
      rintro c handle codec ⟨a, rfl, hc⟩
      exact Sender.actionCall_suits hcoherent a c handle codec hc

/-- A submission is overtaken by the registration of a codec with one more
stream. -/
def overtaken : List Move :=
  [.follow (.act (Sender.sampleRegistration 1)), .follow (.act Sender.sampleFeedback),
    .enter (.submit Sender.sampleFrame none), .follow (.act (Sender.sampleRegistration 2))]

/-- The overtaken submission still makes a safe encode call. -/
theorem calls_safe_overtaken :
    (run { sender := Sender.sample } overtaken).sender.SafeCalls
        ((run { sender := Sender.sample } overtaken).step (.proceed 0)).sender
        (Recent { sender := Sender.sample } overtaken (.proceed 0)) ∧
      Recent { sender := Sender.sample } overtaken (.proceed 0) ∧
      .called 1 (.encode Sender.sampleFrame [.key, .key] none) ∈
        ((run { sender := Sender.sample } overtaken).step (.proceed 0)).sender.rack.journal := by
  refine ⟨calls_safe Sender.sample_fresh overtaken (.proceed 0), ?_, by decide +kernel⟩
  intro stamp hstamp
  have hone : (stamps { sender := Sender.sample } overtaken)[0]? = some 1 := by decide +kernel
  have htwo : registrations (run { sender := Sender.sample } overtaken).sender.rack.journal = 2 := by
    decide +kernel
  rw [hone, Option.some.injEq] at hstamp
  rw [htwo, ← hstamp]
  decide

end Traffic

end Simulcast
