import Mathlib.Data.List.Basic
import Simulcast.Proofs.Sender.Courses
import Simulcast.Proofs.Simulation.Books

/-!
What a simulation reports. Frame by frame the same things happen: rate control
hears of the network, perhaps a key frame is requested, a frame is submitted,
and time goes on. The books of the encoder balance after each of them, whichever
frames rate control drops, so they do at the end, and what is printed is read
off them.
-/

namespace Simulcast

theorem RateController.Asked.maximum? {r r' : RateController} {now : Millis} {c : RateCall}
    (h : r.Asked now c r') : r'.maximum? = r.maximum? := by
  cases h <;> simp

namespace Sender

variable {s s' : Sender}

/-- Only a registration changes the maximum that targets are held at. -/
theorem SmallStep.maximum? (h : s.SmallStep s') : s'.rate.maximum? = s.rate.maximum? := by
  cases h with
  | asked asked => exact asked.maximum?
  | scripted patch => exact s.rate.maximum?_patch patch
  | _ => rfl

theorem Steps.maximum? (h : s.Steps s') : s'.rate.maximum? = s.rate.maximum? := by
  induction h with
  | refl => rfl
  | tail _ hstep ih => exact hstep.maximum?.trans ih

theorem tick_encoders (s : Sender) : s.tick.1.rack.encoders = s.rack.encoders := by
  have hreport : ∀ t : Sender, t.report.1.rack.encoders = t.rack.encoders := by
    intro t
    unfold report
    split <;> rfl
  show (if s.untilDue = 0 then { s with timer := s.timer.restart s.now }.report
    else (s, none)).1.rack.encoders = _
  split
  · exact hreport _
  · rfl

end Sender

/-- The first registration over encoders that are built as they are needed. -/
theorem Registry.register_first {g : Registry} {rack : Rack} {codec : Codec} (cores : UInt32)
    (maxPayload : Nat) (hfault : codec.fault? = none) (hactive : g.active = none)
    (hattached : g.attachments codec.payloadType = none)
    (hblueprint : g.blueprints codec.kind = some {}) (hnone : rack.encoders = #[]) :
    (g.register rack codec cores maxPayload).1.sendCodec = some codec.clamped ∧
      (g.register rack codec cores maxPayload).2.1.encoders =
        #[{ connected := true, codec := some codec.clamped, inits := 1 }] ∧
      (g.register rack codec cores maxPayload).2.2 = .ok ⟨0, false, false⟩ := by
  have hattached' : g.attachments codec.clamped.payloadType = none := hattached
  have hblueprint' : g.blueprints codec.clamped.kind = some {} := hblueprint
  obtain ⟨encoders, journal⟩ := rack
  obtain rfl : encoders = #[] := hnone
  have hinstall : g.register ⟨#[], journal⟩ codec cores maxPayload =
      ({ g with stale := false, sendCodec := none } : Registry).install
        ⟨#[({} : Blueprint).build], journal⟩ ⟨0, none, none⟩ codec.clamped cores maxPayload := by
    simp only [register, hfault, hactive, replace, releaseActive, candidate, hattached',
      hblueprint']
    rfl
  rw [hinstall]
  exact ⟨rfl, rfl, rfl⟩

namespace Simulation

variable {o : Options} {s s' : Sender} {frames requests : Nat} {target : UInt32}

/-- Frames go to the one encoder there is, which is driven by frames and never
fails. -/
structure Going (o : Options) (s : Sender) : Prop where
  slot : s.slot = some ⟨0, false, false⟩
  source : s.plan.internalSource = false
  silent : s.callbacks.Silent
  accepts : s.registry.accepts o.resolution = true
  maximum : s.rate.maximum? = some o.maximum
  built : 0 < s.rack.encoders.size
  faults : (s.rack.encoder 0).faults = {}

/-- The books of the encoder in `s`. -/
def Kept (o : Options) (frames requests : Nat) (target : UInt32) (s : Sender) : Prop :=
  Books o.codec.streamCount frames requests target (s.rack.encoder 0)
    (keyCount s.plan.schedule.kinds)

/-- Whatever leaves the encoders alone, and the plan but for its rates. -/
theorem Going.interval {P : Event → Prop} {new : List Event} (h : Going o s)
    (hs : Sender.Interval P s s' new) (hsteps : s.Steps s')
    (hencoders : s'.rack.encoders = s.rack.encoders) :
    Going o s' ∧ (Kept o frames requests target s → Kept o frames requests target s') := by
  obtain ⟨hsilent, hschedule⟩ := hs.still h.silent
  have hencoder : s'.rack.encoder 0 = s.rack.encoder 0 := by
    rw [Rack.encoder, hencoders, Rack.encoder]
  refine ⟨⟨hs.slot.trans h.slot, hs.source.trans h.source, hsilent, ?_, ?_, ?_, ?_⟩, ?_⟩
  · rw [hs.registry]
    exact h.accepts
  · rw [hsteps.maximum?]
    exact h.maximum
  · rw [hencoders]
    exact h.built
  · rw [hencoder]
    exact h.faults
  · unfold Kept
    rw [hencoder, hschedule]
    exact id

theorem Going.feedback (h : Going o s) (hkept : Kept o frames requests target s)
    (report : Feedback) :
    Going o (s.call (.feedback report)).1 ∧
      Kept o frames requests target (s.call (.feedback report)).1 ∧
      (s.call (.feedback report)).1.plan.rates.targetBitrate = cut o.maximum report.bitrate := by
  have hcall : (s.call (.feedback report)).1 = (s.begin (.feedback report)).1 := by
    have hsource : (s.regulate report).1.plan.internalSource = false := h.source
    simp [Sender.call, Sender.begin, Sender.keepRates, Sender.finish, hsource]
  obtain ⟨new, hbegin⟩ := s.begin_interval (.feedback report) (fun _ h => Call.noConfusion h)
  obtain ⟨hgoing, hsame⟩ := h.interval hbegin (s.begin_steps (.feedback report)) rfl
  rw [hcall]
  exact ⟨hgoing, hsame hkept, s.rate.feed_target h.maximum _ _ _⟩

theorem Going.requestKey (h : Going o s) (hkept : Kept o frames requests target s) (i : Nat) :
    Going o (s.call (.requestKey i)).1 ∧
      Kept o frames (requests + 1) target (s.call (.requestKey i)).1 ∧
      (s.call (.requestKey i)).1.plan.rates = s.plan.rates := by
  have hcall : (s.call (.requestKey i)).1 = s.storeSchedule (s.plan.schedule.mark i) := by
    have hprogress : ∃ reply, (s.markKey i).2 = .finished reply := by
      unfold Sender.markKey
      split <;> simp [h.source]
    obtain ⟨reply, hreply⟩ := hprogress
    show ((s.markKey i).1.finish (s.markKey i).2).1 = _
    rw [hreply]
    exact s.markKey_fst i
  rw [hcall]
  obtain ⟨hle, hmost⟩ := keyCount_set s.plan.schedule.kinds i
  exact ⟨⟨h.slot, h.source, h.silent, h.accepts, h.maximum, h.built, h.faults⟩,
    Books.request hkept hle hmost, rfl⟩

/-- With an encoder that never fails, a frame it can read is held back, dropped
or encoded. -/
theorem Going.verdict (h : Going o s) {frame : Frame}
    (hresolution : frame.resolution = o.resolution) (hplanar : frame.picture.isNative = false)
    (plan : Plan) (error : SendError) :
    s.verdict ⟨0, false, false⟩ frame plan ≠ .error error := by
  have haccepts : s.registry.accepts frame.resolution = true := hresolution ▸ h.accepts
  have hreadable : Sender.readable ⟨0, false, false⟩ frame = .ok frame := by
    simp [Sender.readable, hplanar]
  simp only [Sender.verdict, haccepts, hreadable, h.faults]
  split
  · simp
  · split <;> simp

/-- A submission leaves everything going. -/
theorem Going.encodeOn (h : Going o s) (frame : Frame) :
    Going o (s.encodeOn ⟨0, false, false⟩ frame none s.plan).1 := by
  obtain ⟨hsubmitted, _⟩ := Sender.encodeOn_submitted h.silent ⟨0, false, false⟩ frame none s.plan
  obtain ⟨hsilent, hsource, _⟩ :=
    Sender.encodeOn_plan h.silent ⟨0, false, false⟩ frame none s.plan
  have hrecords := Sender.encodeOn_records h.silent ⟨0, false, false⟩ frame none s.plan
  have hmaximum := (s.encodeOn_course ⟨0, false, false⟩ frame none s.plan).steps.maximum?
  exact
    { slot := hsubmitted.slot.trans h.slot
      source := hsource.trans h.source
      silent := hsilent
      accepts := by
        rw [hsubmitted.registry]
        exact h.accepts
      maximum := hmaximum.trans h.maximum
      built := by
        rw [hrecords.size]
        exact h.built
      faults := (hrecords.faults h.built).trans h.faults }

/-- The target after the rates in the plan were offered. A zero is withheld. -/
def offeredTarget (s : Sender) (target : UInt32) : UInt32 :=
  if s.plan.rates.targetBitrate = 0 then target else s.plan.rates.targetBitrate

/-- The rates come first, and only they change the target. -/
theorem Going.offered (h : Going o s) (hkept : Kept o frames requests target s)
    {offered : List Event} (hoffered : s.Offered 0 s.plan offered) :
    Books o.codec.streamCount frames requests (offeredTarget s target)
      ((s.rack.encoder 0).after (callsOn 0 offered)) (keyCount s.plan.schedule.kinds) := by
  have hgated : Sender.Gated s.plan ↔ s.plan.rates.targetBitrate = 0 := by
    simp [Sender.Gated, h.source]
  cases hoffered with
  | withheld gated =>
      rw [offeredTarget, if_pos (hgated.mp gated)]
      exact hkept
  | offered ungated fault =>
      rw [offeredTarget, if_neg (mt hgated.mpr ungated), callsOn_exchange]
      have htold := Books.configure hkept (by rw [h.faults]) (s.seenRates s.plan.rates)
      rwa [Sender.seenRates_targetBitrate] at htold

/-- A submission is on the books as one frame, whatever it comes to. -/
theorem Going.submit (h : Going o s) (hkept : Kept o frames requests target s) {frame : Frame}
    (hresolution : frame.resolution = o.resolution) (hplanar : frame.picture.isNative = false) :
    Going o (s.submit frame none).1 ∧
      Kept o (frames + 1) requests (offeredTarget s target) (s.submit frame none).1 := by
  have hsubmit : s.submit frame none = s.encodeOn ⟨0, false, false⟩ frame none s.plan := by
    rw [Sender.submit, s.encode_of_slot h.slot, Sender.currentPlan, if_pos rfl]
  obtain ⟨hsubmitted, hverdict⟩ :=
    Sender.encodeOn_submitted h.silent ⟨0, false, false⟩ frame none s.plan
  obtain ⟨_, _, hsettled⟩ := Sender.encodeOn_plan h.silent ⟨0, false, false⟩ frame none s.plan
  have hrecords := Sender.encodeOn_records h.silent ⟨0, false, false⟩ frame none s.plan
  rw [hsubmit]
  refine ⟨h.encodeOn frame, ?_⟩
  generalize s.encodeOn ⟨0, false, false⟩ frame none s.plan = after at *
  obtain ⟨offered, drop, last, hoffered, hending, hencoder⟩ :=
    hsubmitted.encoder hrecords h.built
  have htold := h.offered hkept hoffered
  have hplan : (∀ kinds, after.2 ≠ .ok (.encoded kinds)) →
      keyCount after.1.plan.schedule.kinds = keyCount s.plan.schedule.kinds := fun hnot => by
    rw [hsubmitted.plan hnot]
  unfold Kept
  rw [hencoder]
  generalize hresult : after.2 = result at hending
  have hnever : ∀ error, result ≠ .error error := fun error heq =>
    h.verdict hresolution hplanar s.plan error (hverdict.symm.trans (hresult.trans heq))
  cases hending with
  | gated _ =>
      rw [hplan (by simp [hresult]), callsOn_exchange]
      exact htold.skip
  | dropped _ _ =>
      rw [hplan (by simp [hresult]), callsOn_exchange]
      exact htold.skip
  | mismatched _ _ _ => exact absurd rfl (hnever _)
  | unreadable _ _ _ _ => exact absurd rfl (hnever _)
  | failed _ _ _ _ _ _ => exact absurd rfl (hnever _)
  | encoded _ _ _ _ =>
      have hnone : keyCount after.1.plan.schedule.kinds = 0 := by
        rw [hsettled _ hresult, Schedule.clearSatisfied, if_pos rfl]
        exact keyCount_clearKinds _
      rw [hnone, callsOn_exchange]
      exact htold.encode _ rfl none

/-- The state of a run before frame `k`. -/
def Before (o : Options) (k : Nat) (s : Sender) : Prop :=
  Going o s ∧ Kept o k (o.requestsBefore k) (o.lastTarget k) s

theorem submitFrame_before {picture : Picture} {k : Nat} (h : Before o k s)
    (hresolution : picture.resolution = o.resolution) (hplanar : picture.isNative = false) :
    Before o (k + 1) (submitFrame o picture s k) := by
  obtain ⟨hheard, hbooks, htarget⟩ := h.1.feedback h.2 ⟨o.targetAt k, 0, 50⟩
  have hasked : ∃ t, t = (if o.requestsKeyAt k then
        ((s.call (.feedback ⟨o.targetAt k, 0, 50⟩)).1.call
          (.requestKey (o.codec.streamCount - 1))).1
        else (s.call (.feedback ⟨o.targetAt k, 0, 50⟩)).1) ∧
      Going o t ∧ Kept o k (o.requestsBefore (k + 1)) (o.lastTarget k) t ∧
      t.plan.rates.targetBitrate = o.allowedAt k := by
    refine ⟨_, rfl, ?_⟩
    rw [o.requestsBefore_succ]
    split
    · obtain ⟨hgoing, hkept, hrates⟩ := hheard.requestKey hbooks (o.codec.streamCount - 1)
      exact ⟨hgoing, hkept, by rw [hrates, htarget]; rfl⟩
    · exact ⟨hheard, hbooks, htarget⟩
  obtain ⟨t, ht, hgoing, hkept, hallowed⟩ := hasked
  have hframe : Frame.resolution ⟨picture, UInt32.ofNat k * o.timestampStep, t.now, .none⟩ =
      o.resolution := hresolution
  obtain ⟨hafter, hdone⟩ := hgoing.submit hkept hframe hplanar
  rw [offeredTarget, hallowed] at hdone
  have hsubmit : submitFrame o picture s k = (t.submit
      ⟨picture, UInt32.ofNat k * o.timestampStep, t.now, .none⟩ none).1.takeJournal.1 := by
    rw [ht]
    rfl
  rw [hsubmit]
  exact ⟨⟨hafter.slot, hafter.source, hafter.silent, hafter.accepts, hafter.maximum,
    hafter.built, hafter.faults⟩, hdone⟩

theorem step_before {picture : Picture} {k : Nat} (h : Before o k s)
    (hresolution : picture.resolution = o.resolution) (hplanar : picture.isNative = false) :
    Before o (k + 1) (step o picture s k) := by
  obtain ⟨hgoing, hkept⟩ := submitFrame_before h hresolution hplanar
  have hlater : Going o ((submitFrame o picture s k).advance o.interval) :=
    ⟨hgoing.slot, hgoing.source, hgoing.silent, hgoing.accepts, hgoing.maximum, hgoing.built,
      hgoing.faults⟩
  obtain ⟨new, htick⟩ := Sender.tick_interval ((submitFrame o picture s k).advance o.interval)
  obtain ⟨hticked, hsame⟩ := hlater.interval htick (Sender.tick_steps _) (Sender.tick_encoders _)
  exact ⟨hticked, hsame hkept⟩

/-- The arguments name a codec that is accepted. -/
structure Options.Valid (o : Options) : Prop where
  width : o.width ≠ 0
  height : o.height ≠ 0
  frameRate : o.frameRate ≠ 0
  streams : o.streams ≤ 4

theorem Options.valid_iff (o : Options) : o.Valid ↔ o.codec.fault? = none := by
  have hbitrates : ¬ (o.codec.maxBitrate > 0 ∧ o.codec.minBitrate > o.codec.maxBitrate) := by
    rintro ⟨_, h⟩
    have habove : (30 : UInt32) > 2000 := h
    exact absurd habove (by decide)
  constructor
  · intro h
    have hstreams : ¬ o.codec.simulcastStreams > Codec.maxStreams := UInt8.not_lt.mpr h.streams
    have hresolution : ¬ (o.codec.resolution.width = 0 ∨ o.codec.resolution.height = 0) :=
      not_or.mpr ⟨h.width, h.height⟩
    have hrate : ¬ o.codec.maxFrameRate = 0 := h.frameRate
    rw [Codec.fault?, if_neg hresolution, if_neg hrate, if_neg hstreams, if_neg hbitrates]
  · intro h
    simp only [Codec.fault?, if_neg hbitrates] at h
    split at h
    · simp at h
    rename_i hresolution
    split at h
    · simp at h
    rename_i hrate
    split at h
    · simp at h
    rename_i hstreams
    rw [not_or] at hresolution
    exact ⟨hresolution.1, hresolution.2, hrate, UInt8.not_lt.mp hstreams⟩

/-- The sender of a run before the codec is registered. -/
def Options.sender (o : Options) : Sender :=
  Sender.start
    { dropping := some o.dropFrames
      reportsStatistics := true
      blueprints := fun kind => if kind = o.kind then some {} else none } 0

/-- The sender once the registry has given it an encoder. -/
def Options.supplied (o : Options) : Sender :=
  { o.sender with
    registry := (o.sender.registry.register o.sender.rack o.codec 2 1200).1
    rack := (o.sender.registry.register o.sender.rack o.codec 2 1200).2.1 }

/-- With a new encoder every stream waits for its first key frame. -/
theorem before_adopt (o : Options) {t : Sender}
    (hencoders : t.rack.encoders =
      #[{ connected := true, codec := some o.codec.clamped, inits := 1 }])
    (hcodec : t.registry.sendCodec = some o.codec.clamped)
    (hsilent : (t.adopt o.codec 1200 ⟨0, false, false⟩).callbacks.Silent)
    (hregulated : t.rate.maximum? = some 0) :
    Before o 0 (t.adopt o.codec 1200 ⟨0, false, false⟩) := by
  obtain ⟨hregistry, hsame, hslot, _, hsource, hschedule, _⟩ :=
    t.adopt_end o.codec 1200 ⟨0, false, false⟩
  have hrate : (t.adopt o.codec 1200 ⟨0, false, false⟩).rate =
      (t.rate.enableDropping (t.mayDrop o.codec)).configure (o.codec.limits 1200) := by
    unfold Sender.adopt Sender.configureRate
    dsimp only
    split <;> rfl
  have hencoder : (t.adopt o.codec 1200 ⟨0, false, false⟩).rack.encoder 0 =
      { connected := true, codec := some o.codec.clamped, inits := 1 } := by
    rw [Rack.encoder, hsame, hencoders]
    rfl
  have hkinds : keyCount (t.adopt o.codec 1200 ⟨0, false, false⟩).plan.schedule.kinds =
      o.codec.streamCount := by
    have hstreams : max 1 o.codec.streamCount = o.codec.streamCount :=
      Nat.max_eq_right (Nat.le_max_left 1 _)
    rw [hschedule, Schedule.reset_kinds, hstreams, keyCount, List.countP_replicate]
    rfl
  constructor
  · refine ⟨hslot, hsource, hsilent, ?_, ?_, ?_, ?_⟩
    · rw [hregistry, Registry.accepts, hcodec]
      exact beq_self_eq_true o.resolution
    · rw [hrate, RateController.maximum?_configure, RateController.maximum?_enableDropping,
        hregulated]
      rfl
    · rw [hsame, hencoders]
      exact Nat.one_pos
    · rw [hencoder]
  · unfold Kept
    rw [hencoder, hkinds]
    exact ⟨rfl, fun _ => Nat.le_refl _, fun h => absurd rfl h, Nat.le_of_eq (Nat.zero_add _), rfl⟩

theorem start_before (h : o.Valid) : ∃ s, start o 0 = .ok s ∧ Before o 0 s := by
  have hblueprint : o.sender.registry.blueprints o.codec.kind = some {} := if_pos rfl
  have hfault := o.valid_iff.mp h
  obtain ⟨hcodec, hencoders, hhandle⟩ :=
    Registry.register_first (g := o.sender.registry) 2 1200 hfault rfl rfl hblueprint
      (rfl : o.sender.rack.encoders = #[])
  have hregister : o.sender.register o.codec 2 1200 =
      (o.supplied.adopt o.codec 1200 ⟨0, false, false⟩, .done) := by
    have hrefusal : o.sender.refusal = none := rfl
    simp only [Sender.register, hfault, Sender.askRegistry, hrefusal, hhandle]
    rfl
  have hstart : start o 0 = .ok (o.supplied.adopt o.codec 1200 ⟨0, false, false⟩) := by
    have hcall : o.sender.call (.register o.codec 2 1200) =
        (o.supplied.adopt o.codec 1200 ⟨0, false, false⟩, .done) := hregister
    unfold Options.sender at hcall
    simp only [start, hcall]
  have hcallbacks := o.sender.register_callbacks o.codec 2 1200
  rw [hregister] at hcallbacks
  have hsilent : (o.supplied.adopt o.codec 1200 ⟨0, false, false⟩).callbacks.Silent := by
    rw [hcallbacks]
    exact ⟨fun _ => rfl, rfl⟩
  exact ⟨_, hstart, before_adopt o hencoders hcodec hsilent rfl⟩

/-- However many frames there are, the books balance after all of them. -/
theorem frames_before (h : Before o 0 s) : Before o o.count.toNat (Simulation.frames o s) := by
  unfold Simulation.frames
  induction o.count.toNat with
  | zero => exact h
  | succ n ih =>
      rw [List.range_succ, List.foldl_append]
      exact step_before ih rfl rfl

/-- The numbers of a report. Every stream begins with a key frame, and each
request adds one at most. The encoder ends with what the network last allows,
cut to the maximum of the codec. -/
structure Reported (o : Options) (r : Report) : Prop where
  submitted : r.submitted = o.count.toNat
  total : r.encoded + r.dropped = o.count.toNat
  streams : r.streams = max 1 o.streams.toNat
  none_encoded : r.encoded = 0 → r.keyFrames = 0
  some_encoded : r.encoded ≠ 0 → r.streams ≤ r.keyFrames ∧
    r.keyFrames ≤ r.streams +
      if o.keyFrameInterval = 0 then 0 else (o.count.toNat - 1) / o.keyFrameInterval.toNat
  target : r.target = some (if o.count = 0 then 0 else min o.bitrate 2000000)

theorem Before.reported (h : Before o o.count.toNat s) : Reported o (report o s) := by
  obtain ⟨hgoing, hbooks⟩ := h
  have hkeys : (report o s).keyFrames = keyFrames (s.rack.encoder 0).encodes :=
    (foldl_keyCount _ 0).trans (Nat.zero_add _)
  refine ⟨rfl, hbooks.total, rfl, fun hnone => ?_, fun hsome => ?_, ?_⟩
  · have hempty : (s.rack.encoder 0).encodes = [] := List.length_eq_zero_iff.mp hnone
    rw [hkeys, hempty]
    rfl
  · rw [hkeys]
    refine ⟨hbooks.served fun hempty => hsome (List.length_eq_zero_iff.mpr hempty), ?_⟩
    have hmost := hbooks.most
    rw [o.requestsBefore_eq] at hmost
    have hrequests : (if o.keyFrameInterval = 0 then 0 else
        (o.count.toNat - 1) / o.keyFrameInterval.toNat) =
        (o.count.toNat - 1) / o.keyFrameInterval.toNat := by
      split
      · rename_i hzero
        simp [hzero]
      · rfl
    show _ ≤ o.codec.streamCount + _
    rw [hrequests]
    omega
  · have htarget : (report o s).target = some (s.rack.encoder 0).rates.targetBitrate := by
      simp only [report, Sender.appliedRates, hgoing.slot]
    rw [htarget, hbooks.target, o.lastTarget_count]

/-- The two lines that a report comes to. -/
theorem Reported.text {r : Report} (h : Reported o r) :
    r.text =
      s!"submitted {o.count.toNat} frames: {r.encoded} encoded, {r.dropped} dropped, " ++
        s!"{r.keyFrames} key frames over {max 1 o.streams.toNat} streams\n" ++
        s!"final encoder target: {if o.count = 0 then 0 else min o.bitrate.toNat 2000000} bps\n" := by
  have hbitrate : (min o.bitrate 2000000).toNat = min o.bitrate.toNat 2000000 :=
    (apply_ite UInt32.toNat _ _ _).trans (Nat.min_def ..).symm
  have htarget : (if o.count = 0 then 0 else min o.bitrate 2000000).toNat =
      if o.count = 0 then 0 else min o.bitrate.toNat 2000000 := by
    rw [apply_ite UInt32.toNat, hbitrate]
    rfl
  unfold Report.text
  rw [h.submitted, h.streams, h.target, ← htarget]

/-- The program, run with any arguments that it accepts for a simulation of less
than 2^31 frames: if the size of a frame fits into 64 bits, it prints numbers
that add up, and else it stops before the first frame. -/
theorem run_reports {arguments : List String}
    (hrequest : Request.ofArguments arguments = .ok (.simulate o)) (hvalid : o.Valid)
    (hcount : 2 * o.count.toNat < UInt32.size) :
    (FrameFits o.width.toNat o.height.toNat →
      ∃ encoded dropped keyFrames target : Nat,
        run arguments =
          { status := 0
            output :=
              s!"submitted {o.count.toNat} frames: {encoded} encoded, {dropped} dropped, " ++
                s!"{keyFrames} key frames over {max 1 o.streams.toNat} streams\n" ++
                s!"final encoder target: {target} bps\n" } ∧
        encoded + dropped = o.count.toNat ∧
        (encoded = 0 → keyFrames = 0) ∧
        (encoded ≠ 0 → max 1 o.streams.toNat ≤ keyFrames ∧
          keyFrames ≤ max 1 o.streams.toNat +
            if o.keyFrameInterval = 0 then 0
            else (o.count.toNat - 1) / o.keyFrameInterval.toNat) ∧
        target = if o.count = 0 then 0 else min o.bitrate.toNat 2000000) ∧
    (¬ FrameFits o.width.toNat o.height.toNat → run arguments = .aborted) := by
  obtain ⟨s, hstart, hbefore⟩ := start_before hvalid
  have hrun : run arguments = simulate o := by
    rw [run, hrequest]
  rw [hrun, simulate, hstart]
  constructor
  · intro hfits
    have hall : o.fits = true := decide_eq_true ⟨hfits, hcount⟩
    have hreported : Reported o (report o (Simulation.frames o s)) :=
      (frames_before hbefore).reported
    refine ⟨_, _, _, _, ?_, hreported.total, hreported.none_encoded, fun hsome => ?_, rfl⟩
    · simp only [hall, if_true, hreported.text]
    · rw [← hreported.streams]
      exact hreported.some_encoded hsome
  · intro hlarge
    have hnone : o.fits = false := decide_eq_false fun h => hlarge h.1
    simp [hnone]

/-- Seven frames, two requests, and a network that allows more than the
codec. -/
def brief : List String :=
  ["--count", "7", "--keyframe-interval", "3", "--bitrate", "3000000"]

/-- Nothing is dropped here, and each request comes to one more key frame. -/
theorem run_reports_brief :
    (∃ encoded dropped keyFrames : Nat,
      run brief =
        { status := 0
          output :=
            s!"submitted {7} frames: {encoded} encoded, {dropped} dropped, " ++
              s!"{keyFrames} key frames over {2} streams\n" ++
              s!"final encoder target: {2000000} bps\n" } ∧
      encoded + dropped = 7 ∧ (encoded = 0 → keyFrames = 0) ∧
      (encoded ≠ 0 → 2 ≤ keyFrames ∧ keyFrames ≤ 4)) ∧
    run brief =
      { status := 0
        output :=
          "submitted 7 frames: 7 encoded, 0 dropped, 4 key frames over 2 streams\n" ++
            "final encoder target: 2000000 bps\n" } := by
  have hrequest : Request.ofArguments brief =
      .ok (.simulate { count := 7, keyFrameInterval := 3, bitrate := 3000000 }) := by
    decide +kernel
  have hvalid : Options.Valid { count := 7, keyFrameInterval := 3, bitrate := 3000000 } :=
    ⟨by decide, by decide, by decide, by decide⟩
  obtain ⟨encoded, dropped, keyFrames, target, hrun, htotal, hnone, hsome, rfl⟩ :=
    (run_reports hrequest hvalid (by decide)).1 (by decide)
  exact ⟨⟨encoded, dropped, keyFrames, hrun, htotal, hnone, hsome⟩, by decide +kernel⟩

end Simulation

end Simulcast
