import Mathlib.Data.List.Basic
import Simulcast.Proofs.Sender.Stretch

/-!
What submissions, key frame requests and feedback do while they have the
encoder. Each is an interval in which only the encoder in the slot is called,
and at the end of it at most one change of the schedule that no callback asked
for: the settling of an encode call that succeeded, or of a request the
encoder took. The journal shows both.
-/

namespace Simulcast

/-- Entries of a section in which only encoder `n` is called, by calls from
`C`, and in which a call that returns without a failure satisfies `R`. -/
def Event.CallsOn (n : Nat) (C R : EncoderCall → Prop) : Event → Prop
  | .called m c => m = n ∧ C c
  | .answered m c fault => m = n ∧ C c ∧ (fault = none → R c)
  | .log (.registered _ _) => False
  | _ => True

theorem Event.Aside.callsOn {e : Event} (h : e.Aside) (n : Nat) (C R : EncoderCall → Prop) :
    e.CallsOn n C R := by
  cases e <;> simp_all [Event.Aside, Event.CallsOn]

theorem Event.callsOn_log {notice : Notice} (h : ∀ codec m, notice ≠ .registered codec m)
    (n : Nat) (C R : EncoderCall → Prop) : (Event.log notice).CallsOn n C R := by
  cases notice <;> simp_all [Event.CallsOn]

theorem Event.CallsOn.mono {e : Event} {n : Nat} {C D R : EncoderCall → Prop}
    (h : e.CallsOn n C R) (hCD : ∀ c, C c → D c) : e.CallsOn n D R := by
  cases e with
  | called m c => exact ⟨h.1, hCD c h.2⟩
  | answered m c fault => exact ⟨h.1, hCD c h.2.1, h.2.2⟩
  | log notice => cases notice <;> exact h
  | _ => trivial

theorem Event.CallsOn.routine {e : Event} {n : Nat} {C R : EncoderCall → Prop}
    (h : e.CallsOn n C R) (hC : ∀ c, C c → c.Uses) : e.Routine := by
  cases e with
  | called m c => exact hC c h.2
  | answered m c fault => exact hC c h.2.1
  | log notice => cases notice <;> simp_all [Event.CallsOn, Event.Routine]
  | _ => trivial

namespace Sender

variable {P : Event → Prop}

theorem callEncoder_interval (s : Sender) (n : Nat) {c : EncoderCall} (hc : c.Uses)
    (hcalled : P (.called n c))
    (hanswered : P (.answered n c (Rack.fault? (s.rack.call n c).2))) :
    Interval P s (s.callEncoder n c).1
      [.answered n c (Rack.fault? (s.rack.call n c).2), .called n c] where
  registry := rfl
  slot := rfl
  codec := rfl
  dropping := rfl
  source := rfl
  schedule := rfl
  rack := s.rack.call_alike n hc
  journal := rfl
  entries := by simp [hcalled, hanswered]
  silent hs := ⟨hs, by simp [Event.isNested]⟩

theorem deliver_interval (s : Sender) (image : EncodedImage) :
    ∃ new, Interval Event.Aside s (s.deliver image) new := by
  have haccount := s.interval_rate (s.rate.account s.now image) (.accounted image)
    (P := Event.Aside) trivial
  have himage := (s.account image).interval_note (.image image) (P := Event.Aside) trivial rfl
  obtain ⟨new, hcallback⟩ := onImage_interval ((s.account image).note (.image image))
  exact ⟨_, (haccount.trans himage).trans (hcallback.mono fun _ he => he.aside)⟩

theorem deliverAll_interval (s : Sender) (images : List EncodedImage) :
    ∃ new, Interval Event.Aside s (images.foldl deliver s) new := by
  induction images generalizing s with
  | nil => exact ⟨_, Interval.refl _ _⟩
  | cons image rest ih =>
      obtain ⟨first, hfirst⟩ := s.deliver_interval image
      obtain ⟨others, hothers⟩ := ih (s.deliver image)
      exact ⟨_, hfirst.trans hothers⟩

theorem produce_interval (s : Sender) (n : Nat) {c : EncoderCall} (hc : c.Uses)
    (haside : ∀ e, e.Aside → P e)
    (hanswered : P (.answered n c (Rack.fault? (s.produce n c).2))) :
    ∃ mid, Interval P s (s.produce n c).1
      (.answered n c (Rack.fault? (s.produce n c).2) :: mid) := by
  have hperform : Interval P s { s with rack := (s.rack.perform n c).1 } [] :=
    ⟨⟨rfl, rfl, rfl, rfl, rfl, rfl, s.rack.perform_alike n hc, rfl, by simp⟩,
      fun hs => ⟨hs, by simp⟩⟩
  cases hresult : s.rack.perform n c with
  | mk rack result =>
      rw [hresult] at hperform
      cases result with
      | ok images =>
          have heq : s.produce n c =
              ((images.foldl deliver { s with rack := rack }).note (.answered n c none),
                .ok ()) := by
            simp [produce, hresult]
          rw [heq] at hanswered ⊢
          obtain ⟨mid, hmid⟩ := deliverAll_interval { s with rack := rack } images
          exact ⟨_, (hperform.trans (hmid.mono haside)).trans (interval_note _ _ hanswered rfl)⟩
      | error fault =>
          have heq : s.produce n c =
              ({ s with rack := rack }.note (.answered n c (some fault)), .error fault) := by
            simp [produce, hresult]
          rw [heq] at hanswered ⊢
          exact ⟨_, hperform.trans (interval_note _ _ hanswered rfl)⟩

theorem callEncode_interval (s : Sender) (n : Nat) (frame : Frame) (kinds : List FrameKind)
    (info : Option SideInfo) (haside : ∀ e, e.Aside → P e)
    (hcalled : P (.called n (.encode frame kinds info)))
    (hanswered : P (.answered n (.encode frame kinds info)
      (Rack.fault? (s.callEncode n frame kinds info).2))) :
    ∃ mid, Interval P s (s.callEncode n frame kinds info).1
      (.answered n (.encode frame kinds info)
        (Rack.fault? (s.callEncode n frame kinds info).2) :: mid) := by
  have hnote := s.interval_note _ hcalled rfl
  obtain ⟨during, hduring⟩ :=
    interrupt_interval (s.note (.called n (.encode frame kinds info))) n
  obtain ⟨mid, hmid⟩ := produce_interval
    ((s.note (.called n (.encode frame kinds info))).interrupt n) n
    (c := .encode frame kinds info) trivial haside hanswered
  exact ⟨_, (hnote.trans (hduring.mono fun e he => haside e he.aside)).trans hmid⟩

theorem callRequest_interval (s : Sender) (n : Nat) (kinds : List FrameKind)
    (haside : ∀ e, e.Aside → P e) (hcalled : P (.called n (.request kinds)))
    (hanswered : P (.answered n (.request kinds)
      (Rack.fault? (s.callRequest n kinds).2))) :
    ∃ mid, Interval P s (s.callRequest n kinds).1
      (.answered n (.request kinds) (Rack.fault? (s.callRequest n kinds).2) :: mid) := by
  have hnote := s.interval_note _ hcalled rfl
  obtain ⟨mid, hmid⟩ := produce_interval (s.note (.called n (.request kinds))) n
    (c := .request kinds) trivial haside hanswered
  exact ⟨_, hnote.trans hmid⟩

@[simp]
theorem seenRates_targetBitrate (s : Sender) (rates : RateParameters) :
    (s.seenRates rates).targetBitrate = rates.targetBitrate := by
  unfold seenRates
  split <;> rfl

/-- There is no target bitrate for an encoder that has to be handed frames. -/
def Gated (plan : Plan) : Prop := plan.internalSource = false ∧ plan.rates.targetBitrate = 0

/-- The calls a submission may make by the plan it works on. -/
def SubmissionCall (s : Sender) (slot : Handle) (frame : Frame) (info : Option SideInfo)
    (plan : Plan) : EncoderCall → Prop
  | .skip => True
  | .configure rates => rates = s.seenRates plan.rates ∧ ¬ Gated plan
  | .encode readableFrame kinds i =>
      readable slot frame = .ok readableFrame ∧ s.registry.accepts frame.resolution = true ∧
        kinds = plan.schedule.kinds ∧ i = info ∧ ¬ Gated plan
  | _ => False

/-- The entries of a submission that ends with `result`. An encode call returns
without a failure only if the frame counts as encoded. -/
def SubmissionEntry (s : Sender) (slot : Handle) (frame : Frame) (info : Option SideInfo)
    (plan : Plan) (result : Except SendError Delivery) : Event → Prop :=
  Event.CallsOn slot.encoder (s.SubmissionCall slot frame info plan)
    fun c => ∀ f kinds i, c = .encode f kinds i → result = .ok (.encoded kinds)

variable (s : Sender) (slot : Handle) (frame : Frame) (info : Option SideInfo) (plan : Plan)

theorem SubmissionCall.uses {c : EncoderCall} (h : s.SubmissionCall slot frame info plan c) :
    c.Uses := by
  cases c <;> simp_all [SubmissionCall, EncoderCall.Uses]

/-- Offering the rates is at most one call, and a notice if it fails. -/
theorem offerRates_interval (n : Nat) (hrejected : ∀ fault, P (.log (.ratesRejected fault)))
    (hcalled : ¬ Gated plan → P (.called n (.configure (s.seenRates plan.rates))))
    (hanswered : ¬ Gated plan →
      ∀ fault, P (.answered n (.configure (s.seenRates plan.rates)) fault)) :
    ∃ new, Interval P s (s.offerRates n plan) new := by
  unfold offerRates applyRates
  by_cases hgate : Gated plan
  · have hcond : ¬ plan.internalSource ∧ plan.rates.targetBitrate = 0 := by
      simpa [Gated] using hgate
    rw [if_pos hcond]
    exact ⟨_, Interval.refl _ _⟩
  · have hcond : ¬ (¬ plan.internalSource ∧ plan.rates.targetBitrate = 0) := by
      simpa [Gated] using hgate
    rw [if_neg hcond]
    have hcall := s.callEncoder_interval n (c := .configure (s.seenRates plan.rates)) trivial
      (hcalled hgate) (hanswered hgate _)
    split
    · rename_i t _ heq
      rw [heq] at hcall
      exact ⟨_, hcall⟩
    · rename_i t fault heq
      rw [heq] at hcall
      exact ⟨_, hcall.trans (interval_note _ (.log (.ratesRejected fault)) (hrejected fault) rfl)⟩

theorem askDrop_interval (h : ∀ drop, P (.rate (.drop drop))) :
    Interval P s s.askDrop.1 [.rate (.drop s.askDrop.2)] :=
  s.interval_rate _ (.drop s.askDrop.2) (h _)

theorem skipFrame_interval (n : Nat) (notice : Notice) (hnotice : P (.log notice))
    (hcalled : P (.called n .skip)) (hanswered : ∀ fault, P (.answered n .skip fault)) :
    ∃ new, Interval P s ((s.log notice).skipFrame n) new := by
  have hskip := (s.log notice).callEncoder_interval n (c := .skip) trivial hcalled (hanswered _)
  exact ⟨_, (s.interval_note (.log notice) hnotice rfl).trans hskip⟩

/-- The end of a submission: either nothing but an interval, and the frame was
not encoded, or an encode call that succeeded and whose kinds were settled. -/
def SubmissionEnd (s : Sender) (slot : Handle) (frame : Frame) (info : Option SideInfo)
    (plan : Plan) (before : Sender) (after : Sender × Except SendError Delivery) : Prop :=
  ∃ mid new, Interval (s.SubmissionEntry slot frame info plan after.2) before mid new ∧
    ((after.1 = mid ∧ ∀ kinds, after.2 ≠ .ok (.encoded kinds)) ∨
      (after.1 = mid.storeSchedule (mid.plan.schedule.clearSatisfied plan.schedule) ∧
        after.2 = .ok (.encoded plan.schedule.kinds) ∧
        ∃ f rest, new =
          .answered slot.encoder (.encode f plan.schedule.kinds info) none :: rest))

theorem encodeReadable_end (t : Sender) (readableFrame : Frame)
    (hcall : s.SubmissionCall slot frame info plan
      (.encode readableFrame plan.schedule.kinds info)) :
    SubmissionEnd s slot frame info plan t
      (t.encodeReadable slot.encoder readableFrame info plan) := by
  unfold SubmissionEnd encodeReadable
  cases hencode : t.callEncode slot.encoder readableFrame plan.schedule.kinds info with
  | mk u result =>
      cases result with
      | error fault =>
          obtain ⟨mid, hmid⟩ := t.callEncode_interval slot.encoder readableFrame
            plan.schedule.kinds info
            (P := s.SubmissionEntry slot frame info plan (.error (.encoder fault)))
            (fun _ h => h.callsOn _ _ _) ⟨rfl, hcall⟩
            ⟨rfl, hcall, by simp [hencode, Rack.fault?]⟩
          rw [hencode] at hmid
          exact ⟨_, _, hmid.trans (interval_note _ (.log (.encodeFailed fault.code)) trivial rfl),
            Or.inl ⟨rfl, by simp⟩⟩
      | ok _ =>
          obtain ⟨mid, hmid⟩ := t.callEncode_interval slot.encoder readableFrame
            plan.schedule.kinds info
            (P := s.SubmissionEntry slot frame info plan (.ok (.encoded plan.schedule.kinds)))
            (fun _ h => h.callsOn _ _ _) ⟨rfl, hcall⟩
            ⟨rfl, hcall, fun _ => by simp⟩
          rw [hencode] at hmid
          exact ⟨_, _, hmid, Or.inr ⟨rfl, rfl, readableFrame, mid, rfl⟩⟩

theorem SubmissionEnd.prepend {before mid : Sender} {after : Sender × Except SendError Delivery}
    {new : List Event} (h : SubmissionEnd s slot frame info plan mid after)
    (hnew : Interval (s.SubmissionEntry slot frame info plan after.2) before mid new) :
    SubmissionEnd s slot frame info plan before after := by
  obtain ⟨last, more, hmore, hend⟩ := h
  refine ⟨last, more ++ new, hnew.trans hmore, ?_⟩
  rcases hend with hend | ⟨hafter, hresult, f, rest, rfl⟩
  · exact Or.inl hend
  · exact Or.inr ⟨hafter, hresult, f, rest ++ new, rfl⟩

/-- What a submission does with the encoder in the slot, whichever way it
ends. -/
theorem encodeOn_end :
    SubmissionEnd s slot frame info plan s (s.encodeOn slot frame info plan) := by
  have hasked : ∀ result, ∃ new, Interval (s.SubmissionEntry slot frame info plan result) s
      (s.offerRates slot.encoder plan).askDrop.1 new := by
    intro result
    obtain ⟨new, hoffer⟩ := s.offerRates_interval plan slot.encoder
      (P := s.SubmissionEntry slot frame info plan result) (fun _ => trivial)
      (fun hopen => ⟨rfl, rfl, hopen⟩) (fun hopen _ => ⟨rfl, ⟨rfl, hopen⟩, fun _ => by simp⟩)
    exact ⟨_, hoffer.trans (askDrop_interval _ fun _ => trivial)⟩
  have hskipped : ∀ result (t : Sender) notice, (∀ c m, notice ≠ .registered c m) →
      ∃ new, Interval (s.SubmissionEntry slot frame info plan result) t
        ((t.log notice).skipFrame slot.encoder) new := fun result t notice hnotice =>
    t.skipFrame_interval slot.encoder notice (Event.callsOn_log hnotice _ _ _) ⟨rfl, trivial⟩
      fun _ => ⟨rfl, trivial, fun _ => by simp⟩
  unfold encodeOn
  cases hdrop : (s.offerRates slot.encoder plan).askDrop with
  | mk t drop =>
      rw [hdrop] at hasked
      dsimp only
      split
      · obtain ⟨new, hnew⟩ := hasked (.ok .gated)
        obtain ⟨more, hmore⟩ := hskipped (.ok .gated) t (.gated frame.timestamp) (by simp)
        exact ⟨_, _, hnew.trans hmore, Or.inl ⟨rfl, by simp⟩⟩
      · rename_i hopen
        have hgate : ¬ Gated plan := by simpa [Gated] using hopen
        split
        · obtain ⟨new, hnew⟩ := hasked (.ok .dropped)
          obtain ⟨more, hmore⟩ := hskipped (.ok .dropped) t (.dropped plan.rates) (by simp)
          exact ⟨_, _, hnew.trans hmore, Or.inl ⟨rfl, by simp⟩⟩
        · split
          · obtain ⟨new, hnew⟩ := hasked (.error (.wrongResolution (t.codec.map (·.resolution))
              frame.resolution))
            exact ⟨_, _, hnew.trans (interval_note _ (.log .wrongResolution) trivial rfl),
              Or.inl ⟨rfl, by simp⟩⟩
          · rename_i haccepts
            split
            · rename_i fault _
              obtain ⟨new, hnew⟩ := hasked (.error (.notReadable fault))
              exact ⟨_, _, hnew.trans (interval_note _ (.log (.notReadable fault.reasons))
                trivial rfl), Or.inl ⟨rfl, by simp⟩⟩
            · rename_i readableFrame hreadable
              obtain ⟨new, hnew⟩ :=
                hasked (t.encodeReadable slot.encoder readableFrame info plan).2
              have hregistry : s.registry.accepts frame.resolution = true := by
                rw [← hnew.registry]
                simpa using haccepts
              exact (s.encodeReadable_end slot frame info plan t readableFrame
                ⟨hreadable, hregistry, rfl, rfl, hgate⟩).prepend s slot frame info plan hnew

theorem encode_of_slot (s : Sender) {slot : Handle} (hslot : s.slot = some slot) (frame : Frame)
    (info : Option SideInfo) (copy : Plan) :
    s.encode frame info copy = s.encodeOn slot frame info (s.currentPlan copy) := by
  simp [encode, hslot]

@[simp]
theorem currentPlan_generation (s : Sender) (copy : Plan) :
    (s.currentPlan copy).schedule.generation = s.plan.schedule.generation := by
  unfold currentPlan
  split
  · rename_i h
    exact h.symm
  · rfl

/-- What a submission does: a stretch in which encode calls carry the kinds of
the plan it works on. Only if one of them succeeded is anything settled, and
that after whatever was requested meanwhile. -/
theorem encode_end (s : Sender) (frame : Frame) (info : Option SideInfo) (copy : Plan) :
    ∃ mid new, Stretch Event.Routine s mid new ∧
      (∀ n f kinds i, .called n (.encode f kinds i) ∈ new →
        kinds = (s.currentPlan copy).schedule.kinds) ∧
      (((s.encode frame info copy).1 = mid ∧ encodings new = 0 ∧
          ∀ kinds, (s.encode frame info copy).2 ≠ .ok (.encoded kinds)) ∨
        ((s.encode frame info copy).1 =
            mid.storeSchedule
              (mid.plan.schedule.clearSatisfied (s.currentPlan copy).schedule) ∧
          0 < encodings new ∧
          (s.encode frame info copy).2 = .ok (.encoded (s.currentPlan copy).schedule.kinds))) := by
  cases hslot : s.slot with
  | none => exact ⟨s, [], Stretch.refl _ s, by simp [encode, hslot, encodings]⟩
  | some slot =>
      rw [s.encode_of_slot hslot]
      obtain ⟨mid, new, hmid, hend⟩ := s.encodeOn_end slot frame info (s.currentPlan copy)
      refine ⟨mid, new, hmid.toStretch.mono fun _ he =>
        he.routine fun _ => SubmissionCall.uses s slot frame info _, ?_, ?_⟩
      · intro n f kinds i hmem
        exact (hmid.entries _ hmem).2.2.2.1
      · rcases hend with ⟨hafter, hresult⟩ | ⟨hafter, hresult, f, rest, hnew⟩
        · refine Or.inl ⟨hafter, ?_, hresult⟩
          rw [encodings, List.countP_eq_zero]
          intro e he hencoded
          have hentry := hmid.entries e he
          unfold Event.isEncoded at hencoded
          split at hencoded
          · exact hresult _ (hentry.2.2 rfl _ _ _ rfl)
          · simp at hencoded
        · refine Or.inr ⟨hafter, ?_, hresult⟩
          rw [hnew, encodings, List.countP_pos_iff]
          exact ⟨_, List.mem_cons_self, rfl⟩

theorem encode_journal {s mid : Sender} {frame : Frame} {info : Option SideInfo} {copy : Plan}
    {schedule : Schedule}
    (h : (s.encode frame info copy).1 = mid ∨
      (s.encode frame info copy).1 = mid.storeSchedule schedule) :
    (s.encode frame info copy).1.rack.journal = mid.rack.journal := by
  rcases h with h | h
  · rw [h]
  · rw [h]
    rfl

/-- A submission that works on the live plan carries the live schedule. -/
theorem encode_plan_kinds (s : Sender) (frame : Frame) (info : Option SideInfo) {n : Nat}
    {f : Frame} {carried : List FrameKind} {i : Option SideInfo}
    (h : .called n (.encode f carried i) ∈
      entriesSince s.rack.journal (s.encode frame info s.plan).1.rack.journal) :
    carried = s.plan.schedule.kinds := by
  obtain ⟨mid, new, hmid, hcarried, hend⟩ := s.encode_end frame info s.plan
  rw [encode_journal (hend.imp And.left And.left), hmid.journal, entriesSince_append] at h
  simpa [currentPlan] using hcarried n f carried i h

/-- The entries of a request that hands the schedule of `s` to the encoder. -/
def RequestEntry (s : Sender) (slot : Handle) (accepted : Prop) : Event → Prop :=
  Event.CallsOn slot.encoder (· = .request s.plan.schedule.kinds) fun _ => accepted

/-- The end of a key frame request for a stream. Without an internal source
nothing happens. With one it is asked for a frame, and only if it takes the
request is the stream served. -/
theorem pullKey_end (s : Sender) (stream : Nat) :
    (s.pullKey stream).1 = s ∨
      ∃ slot mid new, s.slot = some slot ∧ slot.internalSource = true ∧
        stream < s.plan.schedule.size ∧
        ((Interval (s.RequestEntry slot False) s mid new ∧ (s.pullKey stream).1 = mid) ∨
          (Interval (s.RequestEntry slot True) s mid new ∧
            (s.pullKey stream).1 = mid.storeSchedule (mid.plan.schedule.serve stream) ∧
            ∃ rest, new =
              .answered slot.encoder (.request s.plan.schedule.kinds) none :: rest)) := by
  by_cases hrange : stream < s.plan.schedule.size
  · cases hslot : s.slot with
    | none =>
        left
        simp [pullKey, Schedule.missing?, hrange, hslot]
    | some slot =>
        by_cases hsource : slot.internalSource = true
        · right
          cases hcall : s.callRequest slot.encoder s.plan.schedule.kinds with
          | mk t result =>
              cases result with
              | error fault =>
                  obtain ⟨mid, hmid⟩ := s.callRequest_interval slot.encoder
                    s.plan.schedule.kinds (P := s.RequestEntry slot False)
                    (fun _ h => h.callsOn _ _ _) ⟨rfl, rfl⟩
                    ⟨rfl, rfl, by simp [hcall, Rack.fault?]⟩
                  rw [hcall] at hmid
                  refine ⟨slot, t.log (.keyRequestFailed stream fault), _, rfl, hsource, hrange,
                    Or.inl ⟨hmid.trans (interval_note _ (.log (.keyRequestFailed stream fault))
                      trivial rfl), ?_⟩⟩
                  simp [pullKey, Schedule.missing?, hrange, hslot, hsource, hcall]
              | ok _ =>
                  obtain ⟨mid, hmid⟩ := s.callRequest_interval slot.encoder
                    s.plan.schedule.kinds (P := s.RequestEntry slot True)
                    (fun _ h => h.callsOn _ _ _) ⟨rfl, rfl⟩ ⟨rfl, rfl, fun _ => trivial⟩
                  rw [hcall] at hmid
                  refine ⟨slot, t, _, rfl, hsource, hrange, Or.inr ⟨hmid, ?_, mid, rfl⟩⟩
                  have hgeneration : t.plan.schedule.generation = s.plan.schedule.generation := by
                    rw [hmid.schedule, Schedule.heed_generation]
                  have hin : stream < t.plan.schedule.size := by
                    rwa [hmid.schedule, Schedule.heed_size]
                  simp [pullKey, Schedule.missing?, hrange, hslot, hsource, hcall, settleKey,
                    hgeneration, Schedule.set_delta_eq, hin]
        · left
          simp [pullKey, Schedule.missing?, hrange, hslot, hsource]
  · left
    simp [pullKey, Schedule.missing?, hrange]

/-- The entries of feedback that is handed to an internal source. -/
def PushEntry (s : Sender) (slot : Handle) (rates : RateParameters) : Event → Prop :=
  Event.CallsOn slot.encoder (· = .configure (s.seenRates rates)) fun _ => True

theorem pushRates_fst (s : Sender) {slot : Handle} (hslot : s.slot = some slot)
    (rates : RateParameters) :
    (s.pushRates rates).1 =
      (s.callEncoder slot.encoder (.configure (s.seenRates rates))).1 := by
  simp only [pushRates, hslot, applyRates]
  split <;> rename_i heq <;> simp_all

/-- The end of network feedback: whatever is in the slot is told the rates. -/
theorem pushRates_end (s : Sender) (rates : RateParameters) :
    (s.slot = none ∧ (s.pushRates rates).1 = s) ∨
      ∃ slot new, s.slot = some slot ∧
        Interval (s.PushEntry slot rates) s (s.pushRates rates).1 new := by
  cases hslot : s.slot with
  | none => exact Or.inl ⟨rfl, by simp [pushRates, hslot]⟩
  | some slot =>
      right
      have hcall := s.callEncoder_interval slot.encoder (c := .configure (s.seenRates rates))
        (P := s.PushEntry slot rates) trivial ⟨rfl, rfl⟩ ⟨rfl, rfl, fun _ => trivial⟩
      rw [← s.pushRates_fst hslot] at hcall
      exact ⟨slot, _, rfl, hcall⟩

end Sender

end Simulcast
