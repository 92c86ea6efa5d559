import Simulcast.Proofs.Journal.Output
import Simulcast.Proofs.Sender.Submission
import Simulcast.Proofs.Sender.Wired

/-!
What comes out of a section of a call. Images come from two calls only, the one
that hands an encoder a frame and the one that asks an internal source for a
frame, and a section makes at most one of them. If the encoder takes it, then
before it answers every image is accounted for and handed to the application, one
after the other; if it does not, there is none. What callbacks do in between
never gets as far as an encoder.
-/

namespace Simulcast

theorem Event.Beside.barren {e : Event} (h : e.Beside) : e.Barren := by
  cases e with
  | rate c => cases c <;> first | exact ⟨rfl, rfl⟩ | exact h.elim
  | statistics _ _ | nested _ _ => exact ⟨rfl, rfl⟩
  | _ => exact h.elim

theorem Event.SetsUp.barren {e : Event} (h : e.SetsUp) : e.Barren := by
  cases e with
  | called n c => cases c <;> first | exact ⟨rfl, rfl⟩ | exact absurd trivial h
  | answered n c fault => cases c <;> first | exact ⟨rfl, rfl⟩ | exact absurd trivial h
  | rate c => cases c <;> first | exact ⟨rfl, rfl⟩ | exact h.elim
  | log notice => exact ⟨rfl, rfl⟩
  | _ => exact h.elim

namespace Encoder

theorem Alike.images {e e' : Encoder} (h : e.Alike e') (timestamp : UInt32)
    (kinds : List FrameKind) : e'.images timestamp kinds = e.images timestamp kinds := by
  simp only [Encoder.images, h.codec, h.connected, h.basic]

/-- What an encoder delivers for a call it takes. -/
theorem perform_images {e : Encoder} {c : EncoderCall} {timestamp : UInt32}
    {kinds : List FrameKind} {images : List EncodedImage}
    (hasked : c.asked? = some (timestamp, kinds)) (h : (e.perform c).2 = .ok images) :
    images = e.images timestamp kinds := by
  have houtcome : ∀ {fault : Option EncoderFault} {all : List EncodedImage},
      outcome fault all = .ok images → images = all := by
    intro fault all heq
    cases fault with
    | none => exact (Except.ok.inj heq).symm
    | some f => simp [outcome] at heq
  cases c with
  | encode frame carried info =>
      obtain ⟨rfl, rfl⟩ := Prod.mk.inj (Option.some.inj hasked)
      exact houtcome h
  | request carried =>
      obtain ⟨rfl, rfl⟩ := Prod.mk.inj (Option.some.inj hasked)
      simp only [perform] at h
      split at h
      · exact houtcome h
      · simp at h
  | _ => simp [EncoderCall.asked?] at hasked

/-- An encoder that is no basic one, has somewhere to send its output and runs
`codec` renders all kinds it is asked for. -/
theorem images_renders {e : Encoder} {codec : Codec} (hbasic : e.basic = false)
    (hconnected : e.connected = true) (hcodec : e.codec = some codec) (timestamp : UInt32)
    (kinds : List FrameKind) : Renders codec timestamp kinds (e.images timestamp kinds) := by
  have heq : e.images timestamp kinds = kinds.zipIdx.map fun asked =>
      ⟨asked.1, imageSize asked.1, timestamp, codec.resolution, asked.2⟩ := by
    simp [Encoder.images, hcodec, hconnected, hbasic]
  rw [heq]
  refine ⟨?_, ?_, ?_, ?_, ?_⟩
  · simp [List.map_map, Function.comp_def]
  · simp [List.map_map, Function.comp_def, List.range_eq_range']
  all_goals
    intro image himage
    obtain ⟨⟨kind, stream⟩, _, rfl⟩ := List.mem_map.mp himage
  · cases kind <;> rfl
  · rfl
  · rfl

end Encoder

/-- What comes out of a time in which `codec` is registered and only the encoder in
`slot` is used, and what the encoder took: it is asked for a frame at most once,
and there are images only if it takes that, one for each kind it was asked for. If
`covered` holds, these are as many as `codec` has streams. -/
inductive Yields (slot : Option Handle) (codec : Option Codec) (covered : Prop) :
    Option (UInt32 × List FrameKind) → List Event → Prop where
  | nothing {new : List Event} (barren : ∀ e ∈ new, e.Barren) :
      Yields slot codec covered none new
  | refused {before during after : List Event} {handle : Handle} {c : EncoderCall}
      {fault : EncoderFault} (serving : slot = some handle) (asked : c.asked?.isSome = true)
      (barren : ∀ e ∈ after ++ (during ++ before), e.Barren) :
      Yields slot codec covered none
        (after ++ .answered handle.encoder c (some fault) ::
          (during ++ .called handle.encoder c :: before))
  | taken {before during after : List Event} {handle : Handle} {current : Codec}
      {c : EncoderCall} {timestamp : UInt32} {kinds : List FrameKind}
      {images : List EncodedImage} (serving : slot = some handle)
      (registered : codec = some current) (asked : c.asked? = some (timestamp, kinds))
      (covers : covered → kinds.length = current.streamCount)
      (renders : Renders current timestamp kinds images)
      (delivers : outputs during = delivered images)
      (inside : ∀ e ∈ during, e.asksFrame = false) (barren : ∀ e ∈ after ++ before, e.Barren) :
      Yields slot codec covered (some (timestamp, kinds))
        (after ++ .answered handle.encoder c none ::
          (during ++ .called handle.encoder c :: before))

namespace Yields

variable {slot : Option Handle} {codec : Option Codec} {covered : Prop}
  {taken : Option (UInt32 × List FrameKind)} {new first last : List Event}

theorem after (h : Yields slot codec covered taken new) (hfirst : ∀ e ∈ first, e.Barren) :
    Yields slot codec covered taken (new ++ first) := by
  cases h with
  | nothing barren => exact .nothing (List.forall_mem_append.mpr ⟨barren, hfirst⟩)
  | refused serving asked barren =>
      simp only [List.append_assoc, List.cons_append]
      refine .refused serving asked ?_
      simp only [← List.append_assoc] at barren ⊢
      exact List.forall_mem_append.mpr ⟨barren, hfirst⟩
  | taken serving registered asked covers renders delivers inside barren =>
      simp only [List.append_assoc, List.cons_append]
      refine .taken serving registered asked covers renders delivers inside ?_
      rw [← List.append_assoc]
      exact List.forall_mem_append.mpr ⟨barren, hfirst⟩

theorem before (h : Yields slot codec covered taken new) (hlast : ∀ e ∈ last, e.Barren) :
    Yields slot codec covered taken (last ++ new) := by
  cases h with
  | nothing barren => exact .nothing (List.forall_mem_append.mpr ⟨hlast, barren⟩)
  | refused serving asked barren =>
      rw [← List.append_assoc]
      refine .refused serving asked ?_
      rw [List.append_assoc]
      exact List.forall_mem_append.mpr ⟨hlast, barren⟩
  | taken serving registered asked covers renders delivers inside barren =>
      rw [← List.append_assoc]
      refine .taken serving registered asked covers renders delivers inside ?_
      rw [List.append_assoc]
      exact List.forall_mem_append.mpr ⟨hlast, barren⟩

theorem outputs_eq_nil (h : Yields slot codec covered none new) : outputs new = [] := by
  cases h with
  | nothing barren => exact outputs_of_barren barren
  | refused serving asked barren =>
      rw [outputs_call, ← outputs_append, ← outputs_append]
      exact outputs_of_barren barren

theorem takenKinds_eq (h : Yields slot codec covered taken new) :
    takenKinds new = ((taken.map (·.2)).getD []).reverse := by
  cases h with
  | nothing barren => exact takenKinds_of_none fun e he => (barren e he).1
  | refused serving asked barren =>
      have hkinds := takenKinds_of_none fun e he => (barren e he).1
      rw [takenKinds_call, ← takenKinds_append]
      simpa [Event.taken, takenKinds_append] using hkinds
  | taken serving registered asked covers renders delivers inside barren =>
      obtain ⟨hafter, hbefore⟩ := List.forall_mem_append.mp barren
      rw [takenKinds_call, takenKinds_of_none fun e he => (hafter e he).1,
        takenKinds_of_none fun e he => (hbefore e he).1, takenKinds_of_none inside]
      simp [Event.taken, asked]

theorem exists_delivered {timestamp : UInt32} {kinds : List FrameKind}
    (h : Yields slot codec covered (some (timestamp, kinds)) new) :
    ∃ current images, Renders current timestamp kinds images ∧ outputs new = delivered images := by
  cases h with
  | taken serving registered asked covers renders delivers inside barren =>
      obtain ⟨hafter, hbefore⟩ := List.forall_mem_append.mp barren
      refine ⟨_, _, renders, ?_⟩
      rw [outputs_call, outputs_of_barren hafter, outputs_of_barren hbefore, delivers,
        List.nil_append, List.append_nil]

/-- What is delivered and what is taken tally. -/
theorem tallies (h : Yields slot codec covered taken new) : Tallies new := by
  have hkinds := h.takenKinds_eq
  cases taken with
  | none => exact .of_none h.outputs_eq_nil hkinds
  | some asked =>
      obtain ⟨_, images, hrenders, houtputs⟩ := h.exists_delivered
      exact .of_delivered houtputs hrenders hkinds

end Yields

/-- What an encoder took of a frame, by the verdict on its submission. -/
def Verdict.taken? (timestamp : UInt32) : Verdict → Option (UInt32 × List FrameKind)
  | .ok (.encoded kinds) => some (timestamp, kinds)
  | _ => none

namespace Sender

variable {s s' s'' t : Sender}

/-- From `s` to `s'` no frame is asked for and no image is seen. -/
def Idles (s s' : Sender) : Prop :=
  ∃ new, s'.rack.journal = new ++ s.rack.journal ∧ ∀ e ∈ new, e.Barren

theorem Idles.of_journal (h : s'.rack.journal = s.rack.journal) : s.Idles s' :=
  ⟨[], h, by simp⟩

theorem Idles.refl (s : Sender) : s.Idles s := .of_journal rfl

theorem Idles.trans (h : s.Idles s') (h' : s'.Idles s'') : s.Idles s'' := by
  obtain ⟨new, hjournal, hnew⟩ := h
  obtain ⟨more, hjournal', hmore⟩ := h'
  exact ⟨more ++ new, by rw [hjournal', hjournal, List.append_assoc],
    List.forall_mem_append.mpr ⟨hmore, hnew⟩⟩

theorem idles_log (s : Sender) (notice : Notice) : s.Idles (s.log notice) :=
  ⟨[.log notice], rfl, List.forall_mem_singleton.mpr ⟨rfl, rfl⟩⟩

/-- A stretch is idle if all that may be written in it is barren. -/
theorem Stretch.idles {P : Event → Prop} {new : List Event} (h : Stretch P s s' new)
    (hP : ∀ e, P e → e.Barren) : s.Idles s' :=
  ⟨new, h.journal, fun e he => hP e (h.entries e he)⟩

theorem Unregistered.idles (h : s.Unregistered s') : s.Idles s' := by
  obtain ⟨new, hjournal, hnew⟩ := h.journal
  exact ⟨new, hjournal, fun e he => (hnew e he).barren⟩

theorem Registered.idles {codec : Codec} {maxPayload : Nat}
    (h : s.Registered s' codec maxPayload) : s.Idles s' := by
  obtain ⟨new, hjournal, _, hnew⟩ := h.journal
  refine ⟨new, hjournal, fun e he => ?_⟩
  rcases hnew e he with hsetup | rfl
  · exact hsetup.barren
  · exact ⟨rfl, rfl⟩

theorem begin_idles (s : Sender) (c : Call) : s.Idles (s.begin c).1 := by
  rcases s.begin_cases c with ⟨stream, _, hmarked⟩ | ⟨_, new, hbegin⟩
  · rw [hmarked]
    exact .of_journal rfl
  · exact hbegin.toStretch.idles fun _ he => he.barren

theorem follow_idles (s : Sender) {i : Instruction} (h : ∀ c, i ≠ .act (.call c)) :
    s.Idles (s.follow i).1 := by
  obtain ⟨new, hfollowed⟩ := s.follow_stretch h
  exact hfollowed.idles fun _ he => he.barren

theorem pushRates_idles (s : Sender) (rates : RateParameters) : s.Idles (s.pushRates rates).1 := by
  cases hslot : s.slot with
  | none =>
      have heq : (s.pushRates rates).1 = s := by simp [pushRates, hslot]
      rw [heq]
      exact .refl s
  | some slot =>
      rw [s.pushRates_fst hslot]
      have hcall := s.callEncoder_interval slot.encoder (c := .configure (s.seenRates rates))
        (P := Event.Barren) trivial ⟨rfl, rfl⟩ ⟨rfl, rfl⟩
      exact hcall.toStretch.idles fun _ he => he

theorem skipFrame_idles (s : Sender) (n : Nat) (notice : Notice) :
    s.Idles ((s.log notice).skipFrame n) := by
  obtain ⟨new, hskip⟩ := s.skipFrame_interval n notice (P := Event.Barren) ⟨rfl, rfl⟩ ⟨rfl, rfl⟩
    fun _ => ⟨rfl, rfl⟩
  exact hskip.toStretch.idles fun _ he => he

/-- Up to the question whether to drop a frame a submission only uses the encoder,
and asks it for none. -/
theorem asked_stretch (s : Sender) (n : Nat) (plan : Plan) :
    ∃ new, Stretch (fun e => e.Routine ∧ e.Barren) s (s.offerRates n plan).askDrop.1 new := by
  obtain ⟨new, hoffer⟩ := s.offerRates_interval plan n (P := fun e => e.Routine ∧ e.Barren)
    (fun _ => ⟨trivial, rfl, rfl⟩) (fun _ => ⟨trivial, rfl, rfl⟩)
    (fun _ _ => ⟨trivial, rfl, rfl⟩)
  exact ⟨_, (hoffer.trans (askDrop_interval _ fun _ => ⟨trivial, rfl, rfl⟩)).toStretch⟩

/-- From `s` to `s'` `images` are delivered, and no frame is asked for. -/
def Hands (s s' : Sender) (images : List EncodedImage) : Prop :=
  ∃ new, s'.rack.journal = new ++ s.rack.journal ∧ (∀ e ∈ new, e.asksFrame = false) ∧
    outputs new = delivered images

theorem Idles.hands (h : s.Idles s') : s.Hands s' [] := by
  obtain ⟨new, hjournal, hnew⟩ := h
  exact ⟨new, hjournal, fun e he => (hnew e he).1, outputs_of_barren hnew⟩

theorem Hands.trans {images more : List EncodedImage} (h : s.Hands s' images)
    (h' : s'.Hands s'' more) : s.Hands s'' (images ++ more) := by
  obtain ⟨new, hjournal, hnew, houtputs⟩ := h
  obtain ⟨new', hjournal', hnew', houtputs'⟩ := h'
  refine ⟨new' ++ new, by rw [hjournal', hjournal, List.append_assoc],
    List.forall_mem_append.mpr ⟨hnew', hnew⟩, ?_⟩
  rw [outputs_append, delivered_append, houtputs, houtputs']

/-- An image is accounted for and handed out, and whatever the application does
about it brings no other. -/
theorem deliver_hands (s : Sender) (image : EncodedImage) : s.Hands (s.deliver image) [image] := by
  have himage : s.Hands ((s.account image).note (.image image)) [image] :=
    ⟨[.image image, .rate (.accounted image)], rfl, by simp [Event.asksFrame], rfl⟩
  obtain ⟨new, hcallback⟩ := ((s.account image).note (.image image)).onImage_interval
  exact himage.trans (hcallback.toStretch.idles fun _ he => he.barren).hands

theorem deliverAll_hands (s : Sender) (images : List EncodedImage) :
    s.Hands (images.foldl deliver s) images := by
  induction images generalizing s with
  | nil => exact (Idles.refl s).hands
  | cons image rest ih => exact (s.deliver_hands image).trans (ih (s.deliver image))

/-- What comes out between `s` and `s'`, by what is registered and in the slot of `s`. -/
def Produces (s s' : Sender) (covered : Prop) (taken : Option (UInt32 × List FrameKind)) : Prop :=
  ∃ new, s'.rack.journal = new ++ s.rack.journal ∧ Yields s.slot s.codec covered taken new

variable {covered : Prop} {taken : Option (UInt32 × List FrameKind)}

theorem Idles.produces (h : s.Idles s') : s.Produces s' covered none := by
  obtain ⟨new, hjournal, hnew⟩ := h
  exact ⟨new, hjournal, .nothing hnew⟩

theorem Produces.before (h : s.Produces t covered taken) (hidle : t.Idles s') :
    s.Produces s' covered taken := by
  obtain ⟨new, hjournal, hyields⟩ := h
  obtain ⟨last, hjournal', hlast⟩ := hidle
  exact ⟨last ++ new, by rw [hjournal', hjournal, List.append_assoc], hyields.before hlast⟩

theorem Produces.after (h : t.Produces s' covered taken) (hidle : s.Idles t)
    (hslot : t.slot = s.slot) (hcodec : t.codec = s.codec) : s.Produces s' covered taken := by
  obtain ⟨new, hjournal, hyields⟩ := h
  obtain ⟨first, hjournal', hfirst⟩ := hidle
  rw [hslot, hcodec] at hyields
  exact ⟨new ++ first, by rw [hjournal, hjournal', List.append_assoc], hyields.after hfirst⟩

/-- The encoder in the slot renders what it is asked for at the resolution of the
codec that is registered. -/
theorem Coherent.renders (hs : s.Coherent) (hwired : s.Wired) {handle : Handle}
    {codec : Codec} (hslot : s.slot = some handle) (hcodec : s.codec = some codec)
    (timestamp : UInt32) (kinds : List FrameKind) :
    Renders codec timestamp kinds ((s.rack.encoder handle.encoder).images timestamp kinds) := by
  have hencoder : s.registry.encoder? = some handle := hs.slot.symm.trans hslot
  obtain ⟨active, hactive, rfl⟩ := Option.map_eq_some_iff.mp hencoder
  obtain ⟨served, hserved, hclamped⟩ := hs.serving active.handle hslot
  obtain rfl : served = codec := Option.some.inj (hserved.symm.trans hcodec)
  obtain ⟨hconnected, hruns⟩ := hwired.active active hactive
  have hrenders := Encoder.images_renders (hwired.synthetic active.handle.encoder) hconnected
    (hruns.trans hclamped) timestamp kinds
  exact ⟨hrenders.asked, hrenders.streams, hrenders.sized, hrenders.resolution, hrenders.timestamp⟩

/-- What is written from when an encoder comes to a call until it answers. It
delivers what it has for the call, or nothing if it fails. -/
theorem produce_end (s : Sender) (n : Nat) {c : EncoderCall} {timestamp : UInt32}
    {kinds : List FrameKind} (hasked : c.asked? = some (timestamp, kinds)) :
    (∃ fault, (s.produce n c).2 = .error fault ∧
        (s.produce n c).1.rack.journal = .answered n c (some fault) :: s.rack.journal) ∨
      ((s.produce n c).2 = .ok () ∧
        ∃ during, (s.produce n c).1.rack.journal =
            .answered n c none :: (during ++ s.rack.journal) ∧
          (∀ e ∈ during, e.asksFrame = false) ∧
          outputs during = delivered ((s.rack.encoder n).images timestamp kinds)) := by
  simp only [produce]
  split
  · rename_i images hresult
    obtain ⟨during, hjournal, hduring, houtputs⟩ :=
      deliverAll_hands { s with rack := (s.rack.perform n c).1 } images
    refine Or.inr ⟨rfl, during, congrArg (Event.answered n c none :: ·) hjournal, hduring, ?_⟩
    rw [houtputs, Encoder.perform_images hasked hresult]
  · rename_i fault _
    exact Or.inl ⟨fault, rfl, rfl⟩

/-- The encoder in the slot is asked for a frame, and by the time it answers no
other encoder has been set up or given up. -/
theorem produce_produces (hs : s.Coherent) (hwired : s.Wired) {handle : Handle}
    {codec : Codec} (hslot : s.slot = some handle) (hcodec : s.codec = some codec)
    {c : EncoderCall} {timestamp : UInt32} {kinds : List FrameKind}
    (hasked : c.asked? = some (timestamp, kinds))
    (hcovers : covered → kinds.length = codec.streamCount)
    (hidle : (s.note (.called handle.encoder c)).Idles t) (halike : s.rack.Alike t.rack) :
    s.Produces (t.produce handle.encoder c).1 covered
      ((t.produce handle.encoder c).2.toOption.map fun _ => (timestamp, kinds)) := by
  obtain ⟨first, hjournal, hfirst⟩ := hidle
  rcases t.produce_end handle.encoder hasked with
    ⟨fault, hresult, hanswered⟩ | ⟨hresult, during, hanswered, hduring, houtputs⟩
  · rw [hresult]
    refine ⟨[] ++ .answered handle.encoder c (some fault) ::
      (first ++ .called handle.encoder c :: []), ?_, .refused hslot (by simp [hasked]) ?_⟩
    · rw [hanswered, hjournal]
      simp [note, Rack.note]
    · simpa using hfirst
  · rw [hresult]
    have hall : ∀ e ∈ during ++ first, e.asksFrame = false :=
      List.forall_mem_append.mpr ⟨hduring, fun e he => (hfirst e he).1⟩
    have hdelivers : outputs (during ++ first) =
        delivered ((s.rack.encoder handle.encoder).images timestamp kinds) := by
      rw [outputs_append, outputs_of_barren hfirst, houtputs, List.append_nil,
        (halike.encoder handle.encoder).images]
    have hyields : Yields s.slot s.codec covered (some (timestamp, kinds))
        ([] ++ .answered handle.encoder c none ::
          ((during ++ first) ++ .called handle.encoder c :: [])) :=
      .taken hslot hcodec hasked hcovers (hs.renders hwired hslot hcodec timestamp kinds)
        hdelivers hall (by simp)
    refine ⟨_, ?_, hyields⟩
    rw [hanswered, hjournal]
    simp [note, Rack.note]

theorem callEncode_produces (hs : s.Coherent) (hwired : s.Wired) {handle : Handle}
    {codec : Codec} (hslot : s.slot = some handle) (hcodec : s.codec = some codec) (frame : Frame)
    {kinds : List FrameKind} (info : Option SideInfo)
    (hcovers : covered → kinds.length = codec.streamCount) :
    s.Produces (s.callEncode handle.encoder frame kinds info).1 covered
      ((s.callEncode handle.encoder frame kinds info).2.toOption.map fun _ =>
        (frame.timestamp, kinds)) := by
  obtain ⟨_, hinterrupted⟩ := interrupt_interval
    (s.note (.called handle.encoder (.encode frame kinds info))) handle.encoder
  exact produce_produces hs hwired hslot hcodec rfl hcovers
    (hinterrupted.toStretch.idles fun _ he => he.barren)
    ((s.rack.note_alike _).trans hinterrupted.rack)

theorem callRequest_produces (hs : s.Coherent) (hwired : s.Wired)
    {handle : Handle} {codec : Codec} (hslot : s.slot = some handle)
    (hcodec : s.codec = some codec) {kinds : List FrameKind}
    (hcovers : covered → kinds.length = codec.streamCount) :
    s.Produces (s.callRequest handle.encoder kinds).1 covered
      ((s.callRequest handle.encoder kinds).2.toOption.map fun _ => (0, kinds)) :=
  produce_produces hs hwired hslot hcodec rfl hcovers (.refl _) (s.rack.note_alike _)

/-- A submission of `frame` ends with what its verdict says, and that comes out. -/
def Sends (s : Sender) (frame : Frame) (covered : Prop) (after : Sender × Verdict) : Prop :=
  s.Produces after.1 covered (after.2.taken? frame.timestamp)

theorem encodeReadable_sends (hs : s.Coherent) (hwired : s.Wired)
    {handle : Handle} {codec : Codec} (hslot : s.slot = some handle)
    (hcodec : s.codec = some codec) (frame : Frame) (info : Option SideInfo) {plan : Plan}
    (hcovers : covered → plan.schedule.kinds.length = codec.streamCount) :
    s.Sends frame covered (s.encodeReadable handle.encoder frame info plan) := by
  have hcalled := callEncode_produces hs hwired hslot hcodec frame info hcovers
  unfold encodeReadable
  split <;> rename_i heq <;> rw [heq] at hcalled
  · exact hcalled.before (idles_log _ _)
  · exact hcalled.before (.of_journal rfl)

theorem encodeOn_sends (hs : s.Coherent) (hwired : s.Wired) {handle : Handle}
    {codec : Codec} (hslot : s.slot = some handle) (hcodec : s.codec = some codec) (frame : Frame)
    (info : Option SideInfo) {plan : Plan}
    (hcovers : covered → plan.schedule.kinds.length = codec.streamCount) :
    s.Sends frame covered (s.encodeOn handle frame info plan) := by
  obtain ⟨_, hasked⟩ := s.asked_stretch handle.encoder plan
  have hidle := hasked.idles fun _ he => he.2
  unfold encodeOn
  cases hdrop : (s.offerRates handle.encoder plan).askDrop with
  | mk t drop =>
  rw [hdrop] at hidle hasked
  have hlogged : ∀ notice, s.Idles (t.log notice) := fun notice => hidle.trans (idles_log _ _)
  dsimp only
  split
  · exact (hidle.trans (skipFrame_idles _ _ _)).produces
  · split
    · exact (hidle.trans (skipFrame_idles _ _ _)).produces
    · split
      · exact (hlogged _).produces
      · split
        · exact (hlogged _).produces
        · rename_i f hreadable
          have hsent := encodeReadable_sends (hasked.coherent (fun _ he => he.1) hs)
            ((hasked.mono fun _ he => he.1).wired hwired) (hasked.slot.trans hslot)
            (hasked.codec.trans hcodec) f info hcovers
          have hsame : f.timestamp = frame.timestamp := (readable_matches hreadable).1
          unfold Sends at hsent ⊢
          rw [← hsame]
          exact hsent.after hidle hasked.slot hasked.codec

theorem encode_sends (hs : s.Coherent) (hwired : s.Wired) (frame : Frame)
    (info : Option SideInfo) (copy : Plan)
    (hcovers : covered → (s.currentPlan copy).schedule.size = s.plan.schedule.size) :
    s.Sends frame covered (s.encode frame info copy) := by
  cases hslot : s.slot with
  | none =>
      have heq : s.encode frame info copy = (s, .error .uninitialized) := by simp [encode, hslot]
      rw [heq]
      exact (Idles.refl s).produces
  | some handle =>
      obtain ⟨codec, hcodec, _⟩ := hs.serving handle hslot
      rw [s.encode_of_slot hslot]
      exact encodeOn_sends hs hwired hslot hcodec frame info fun h =>
        (hcovers h).trans (hs.kinds_length hcodec)

theorem settleKey_idles (s : Sender) (stream : Nat) (asked : Schedule) :
    s.Idles (s.settleKey stream asked).1 := by
  unfold settleKey
  split
  · split
    · exact .of_journal rfl
    · exact .refl s
  · exact .refl s

theorem pullKey_produces (hs : s.Coherent) (hwired : s.Wired) (stream : Nat) :
    ∃ taken, s.Produces (s.pullKey stream).1 covered taken := by
  unfold pullKey
  split
  · exact ⟨none, (Idles.refl s).produces⟩
  · split
    · exact ⟨none, (Idles.refl s).produces⟩
    · rename_i handle hslot
      split
      · obtain ⟨codec, hcodec, _⟩ := hs.serving handle hslot
        have hcovers : covered → s.plan.schedule.kinds.length = codec.streamCount :=
          fun _ => hs.kinds_length hcodec
        have hcalled := callRequest_produces hs hwired hslot hcodec hcovers
        dsimp only
        split <;> rename_i heq <;> rw [heq] at hcalled
        · exact ⟨_, hcalled.before (idles_log _ _)⟩
        · exact ⟨_, hcalled.before (settleKey_idles _ _ _)⟩
      · exact ⟨none, (Idles.refl s).produces⟩

/-- Of all stages only a submission and a key frame request ask for a frame. -/
theorem runStage_produces (hs : s.Coherent) (hwired : s.Wired) (stage : EncoderStage)
    (hcovers : ∀ frame info copy, stage = .encode frame info copy → covered →
      (s.currentPlan copy).schedule.size = s.plan.schedule.size) :
    ∃ taken, s.Produces (s.runStage stage).1 covered taken ∧
      ∀ frame info copy, stage = .encode frame info copy →
        taken = Verdict.taken? frame.timestamp (s.encode frame info copy).2 := by
  have hidle : s.Idles (s.runStage stage).1 → (∀ frame info copy, stage ≠ .encode frame info copy) →
      ∃ taken, s.Produces (s.runStage stage).1 covered taken ∧
        ∀ frame info copy, stage = .encode frame info copy →
          taken = Verdict.taken? frame.timestamp (s.encode frame info copy).2 :=
    fun h hother => ⟨none, h.produces, fun frame info copy heq => absurd heq (hother _ _ _)⟩
  cases stage with
  | encode frame info copy =>
      refine ⟨_, encode_sends hs hwired frame info copy (hcovers frame info copy rfl), ?_⟩
      rintro _ _ _ ⟨⟩
      rfl
  | pullKey stream =>
      have ⟨taken, h⟩ : ∃ taken, s.Produces (s.pullKey stream).1 covered taken :=
        pullKey_produces hs hwired stream
      exact ⟨taken, h, by simp⟩
  | pushRates rates => exact hidle (s.pushRates_idles rates) (by simp)
  | register codec cores maxPayload =>
      rcases (register_end hs codec cores maxPayload).2 with ⟨h, _⟩ | ⟨h, _⟩
      · exact hidle h.idles (by simp)
      · exact hidle h.idles (by simp)
  | attach payloadType internalSource choice =>
      exact hidle (attach_end hs payloadType internalSource choice).2.idles (by simp)
  | detach payloadType => exact hidle (detach_end hs payloadType).2.idles (by simp)
  | enableDropping on => exact hidle (enableDropping_end hs on).2.idles (by simp)

/-- A call from beginning to end brings what its last section brings. -/
theorem call_produces (hs : s.Coherent) (hwired : s.Wired) (c : Call) :
    ∃ taken, s.Produces (s.call c).1 covered taken ∧
      ∀ frame info, c = .submit frame info →
        taken = Verdict.taken? frame.timestamp (s.submit frame info).2 := by
  have hbegun := s.begin_idles c
  obtain ⟨_, hslot, hcodec⟩ := s.begin_slot c
  show ∃ taken, s.Produces ((s.begin c).1.finish (s.begin c).2).1 covered taken ∧ _
  cases hprogress : (s.begin c).2 with
  | finished reply =>
      refine ⟨none, hbegun.produces, ?_⟩
      rintro frame info rfl
      cases hprogress
  | waits stage =>
      -- A submission that is not interrupted encodes with the plan it took.
      have hcovers : ∀ frame info copy, stage = .encode frame info copy → covered →
          ((s.begin c).1.currentPlan copy).schedule.size = (s.begin c).1.plan.schedule.size := by
        rintro frame info copy rfl _
        obtain ⟨_, hcopy, hsame⟩ := begin_encode hprogress
        rw [hsame, hcopy, currentPlan, if_pos rfl]
      obtain ⟨taken, h, hsubmitted⟩ := runStage_produces (begin_coherent hs c)
        (begin_wired hwired c) stage hcovers
      refine ⟨taken, h.after hbegun hslot hcodec, ?_⟩
      rintro frame info rfl
      obtain rfl := Progress.waits.inj hprogress
      exact hsubmitted frame info s.plan rfl

end Sender

end Simulcast
