import Mathlib.Data.List.Basic
import Simulcast.Proofs.Sender.Submission

/-!
The records that encoders keep, and the journal. What becomes of an encoder in
a submission is what its calls make of it, in the order in which the journal
shows them, and nothing else. So whatever the journal says of the calls of a
submission says what is in the records afterwards.
-/

namespace Simulcast

/-- The encoder after some calls, the latest first. -/
def Encoder.after (e : Encoder) (calls : List EncoderCall) : Encoder :=
  calls.foldr (fun c e => (e.perform c).1) e

theorem Encoder.after_append (e : Encoder) (new old : List EncoderCall) :
    e.after (new ++ old) = (e.after old).after new :=
  List.foldr_append

theorem Encoder.after_faults (e : Encoder) (calls : List EncoderCall) :
    (e.after calls).faults = e.faults := by
  induction calls with
  | nil => rfl
  | cons c rest ih => exact ((e.after rest).perform_faults c).trans ih

/-- A call on encoder `n`. -/
def Event.callOn? (n : Nat) : Event → Option EncoderCall
  | .called m c => if m = n then some c else none
  | _ => none

/-- The calls on encoder `n` that a journal shows, the latest first. -/
def callsOn (n : Nat) (journal : List Event) : List EncoderCall :=
  journal.filterMap (Event.callOn? n)

theorem callsOn_append (n : Nat) (new old : List Event) :
    callsOn n (new ++ old) = callsOn n new ++ callsOn n old :=
  List.filterMap_append

theorem callsOn_exchange (n : Nat) (c : EncoderCall) (fault : Option EncoderFault) :
    callsOn n (exchange n c fault) = [c] := by
  simp [callsOn, exchange, List.filterMap_cons, Event.callOn?]

/-- Nothing but consultations calls an encoder. -/
theorem callsOn_consultations (n : Nat) (journal : List Event) :
    callsOn n (consultations journal) = callsOn n journal := by
  rw [callsOn, consultations, List.filterMap_filter, callsOn]
  congr 1
  funext e
  cases e with
  | rate c => cases c <;> rfl
  | _ => simp [Event.callOn?, Event.consults]

namespace Sender

variable {s s' s'' : Sender}

/-- From `s` to `s'` the calls in the journal, and nothing else, are done to the
encoders. -/
structure Records (s s' : Sender) : Prop where
  size : s'.rack.encoders.size = s.rack.encoders.size
  calls : ∃ new, s'.rack.journal = new ++ s.rack.journal ∧
    ∀ n, n < s.rack.encoders.size →
      s'.rack.encoder n = (s.rack.encoder n).after (callsOn n new)

theorem Records.trans (h : s.Records s') (h' : s'.Records s'') : s.Records s'' where
  size := h'.size.trans h.size
  calls := by
    obtain ⟨new, hjournal, hnew⟩ := h.calls
    obtain ⟨new', hjournal', hnew'⟩ := h'.calls
    refine ⟨new' ++ new, by rw [hjournal', hjournal, List.append_assoc], fun n hn => ?_⟩
    rw [hnew' n (h.size.symm ▸ hn), hnew n hn, callsOn_append, Encoder.after_append]

/-- No encoder is called. -/
theorem Records.of_none {new : List Event} (hencoders : s'.rack.encoders = s.rack.encoders)
    (hjournal : s'.rack.journal = new ++ s.rack.journal) (hnew : ∀ n, callsOn n new = []) :
    s.Records s' where
  size := by rw [hencoders]
  calls := by
    refine ⟨new, hjournal, fun n _ => ?_⟩
    rw [hnew n, Rack.encoder, hencoders]
    rfl

theorem Records.refl (s : Sender) : s.Records s :=
  .of_none rfl (List.nil_append _).symm fun _ => rfl

theorem records_note (s : Sender) {e : Event} (h : ∀ n, e.callOn? n = none) :
    s.Records (s.note e) := by
  have hjournal : (s.note e).rack.journal = [e] ++ s.rack.journal := rfl
  exact .of_none rfl hjournal fun n => by simp [callsOn, h n]

theorem records_log (s : Sender) (notice : Notice) : s.Records (s.log notice) :=
  s.records_note (e := .log notice) fun _ => rfl

theorem records_askDrop (s : Sender) : s.Records s.askDrop.1 := by
  have hjournal : s.askDrop.1.rack.journal = [.rate (.drop s.askDrop.2)] ++ s.rack.journal := rfl
  exact .of_none rfl hjournal fun _ => rfl

/-- A call reaches an encoder, and the encoder does what it is to do. -/
theorem records_perform (s : Sender) (n : Nat) (c : EncoderCall) :
    s.Records { s with rack := ((s.rack.note (.called n c)).perform n c).1 } where
  size := (s.rack.note (.called n c)).perform_size n c
  calls := by
    refine ⟨[.called n c], rfl, fun m hm => ?_⟩
    have hsame : (s.rack.note (.called n c)).encoders.size = s.rack.encoders.size := rfl
    show ((s.rack.note (.called n c)).perform n c).1.encoder m = _
    rw [Rack.encoder_perform, hsame]
    by_cases hmn : m = n
    · subst hmn
      rw [if_pos ⟨rfl, hm⟩]
      simp [callsOn, Event.callOn?, Encoder.after, Rack.encoder, Rack.note]
    · have hnm : ¬ n = m := fun h => hmn h.symm
      rw [if_neg fun h => hmn h.1]
      simp [callsOn, Event.callOn?, Encoder.after, Rack.encoder, Rack.note, hnm]

theorem records_callEncoder (s : Sender) (n : Nat) (c : EncoderCall) :
    s.Records (s.callEncoder n c).1 :=
  (s.records_perform n c).trans (records_note _ (e := .answered n c _) fun _ => rfl)

theorem records_deliver (hs : s.callbacks.Silent) (image : EncodedImage) :
    s.Records (s.deliver image) := by
  have hjournal : ((s.account image).note (.image image)).rack.journal =
      [.image image, .rate (.accounted image)] ++ s.rack.journal := rfl
  rw [deliver_of_silent hs]
  exact .of_none rfl hjournal fun _ => rfl

theorem records_deliverAll (hs : s.callbacks.Silent) (images : List EncodedImage) :
    s.Records (images.foldl deliver s) := by
  induction images generalizing s with
  | nil => exact .refl s
  | cons image rest ih =>
      have hsilent : (s.deliver image).callbacks.Silent := (asks_deliver hs image).callbacks ▸ hs
      exact (records_deliver hs image).trans (ih hsilent)

theorem records_callEncode (hs : s.callbacks.Silent) (n : Nat) (frame : Frame)
    (kinds : List FrameKind) (info : Option SideInfo) :
    s.Records (s.callEncode n frame kinds info).1 := by
  have hperformed := s.records_perform n (.encode frame kinds info)
  rw [callEncode_of_silent hs]
  simp only [produce]
  split
  · rename_i images _
    have hdelivered := records_deliverAll (s := { s with
      rack := ((s.rack.note (.called n (.encode frame kinds info))).perform n
        (.encode frame kinds info)).1 }) hs images
    exact (hperformed.trans hdelivered).trans
      (records_note _ (e := .answered n _ none) fun _ => rfl)
  · exact hperformed.trans (records_note _ (e := .answered n _ (some _)) fun _ => rfl)

theorem records_offerRates (s : Sender) (n : Nat) (plan : Plan) :
    s.Records (s.offerRates n plan) := by
  have happlied : s.Records (s.applyRates n plan.rates plan.internalSource).1 := by
    unfold applyRates
    split
    · exact .refl s
    · exact s.records_callEncoder n _
  unfold offerRates
  split <;> rename_i heq <;> rw [heq] at happlied
  · exact happlied
  · exact happlied.trans (records_log _ _)

theorem records_encodeReadable (hs : s.callbacks.Silent) (n : Nat) (frame : Frame)
    (info : Option SideInfo) (plan : Plan) :
    s.Records (s.encodeReadable n frame info plan).1 := by
  have hcalled := records_callEncode hs n frame plan.schedule.kinds info
  unfold encodeReadable
  split <;> rename_i heq <;> rw [heq] at hcalled
  · exact hcalled.trans (records_log _ _)
  · exact ⟨hcalled.size, hcalled.calls⟩

/-- What becomes of the encoders in a submission, whichever way it ends. -/
theorem encodeOn_records (hs : s.callbacks.Silent) (slot : Handle) (frame : Frame)
    (info : Option SideInfo) (plan : Plan) :
    s.Records (s.encodeOn slot frame info plan).1 := by
  obtain ⟨offered, _, hoffered, _, _⟩ := s.offerRates_asks slot.encoder plan
  have hasked := (s.records_offerRates slot.encoder plan).trans (records_askDrop _)
  have hsilent : (s.offerRates slot.encoder plan).askDrop.1.callbacks.Silent :=
    hoffered.callbacks ▸ hs
  have hlogged : ∀ notice, s.Records ((s.offerRates slot.encoder plan).askDrop.1.log notice) :=
    fun notice => hasked.trans (records_log _ notice)
  simp only [encodeOn]
  split
  · exact (hlogged _).trans (records_callEncoder _ _ .skip)
  · split
    · exact (hlogged _).trans (records_callEncoder _ _ .skip)
    · split
      · exact hlogged _
      · split
        · exact hlogged _
        · exact hasked.trans (records_encodeReadable hsilent _ _ _ _)

theorem Records.faults (h : s.Records s') {n : Nat} (hn : n < s.rack.encoders.size) :
    (s'.rack.encoder n).faults = (s.rack.encoder n).faults := by
  obtain ⟨new, _, hnew⟩ := h.calls
  rw [hnew n hn, Encoder.after_faults]

/-- The encoder that a submission goes to, by what the submission comes to. -/
theorem Submitted.encoder {slot : Handle} {frame : Frame} {info : Option SideInfo} {plan : Plan}
    {after : Sender × Except SendError Delivery} (h : s.Submitted slot frame info plan after)
    (hrecords : s.Records after.1) (hslot : slot.encoder < s.rack.encoders.size) :
    ∃ offered drop last, s.Offered slot.encoder plan offered ∧
      s.Ending slot frame info plan drop after.2 last ∧
      after.1.rack.encoder slot.encoder =
        ((s.rack.encoder slot.encoder).after (callsOn slot.encoder offered)).after
          (callsOn slot.encoder last) := by
  obtain ⟨offered, drop, last, new, hoffered, hending, hjournal, hnew⟩ := h.consulted
  obtain ⟨new', hjournal', hcalls⟩ := hrecords.calls
  obtain rfl : new' = new := List.append_cancel_right (hjournal'.symm.trans hjournal)
  refine ⟨offered, drop, last, hoffered, hending, ?_⟩
  have hdrop : callsOn slot.encoder (.rate (.drop drop) :: offered) =
      callsOn slot.encoder offered := rfl
  rw [hcalls slot.encoder hslot, ← callsOn_consultations, hnew, callsOn_append, hdrop,
    Encoder.after_append]

end Sender

end Simulcast
