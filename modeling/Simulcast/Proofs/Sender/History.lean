import Mathlib.Data.List.Basic
import Simulcast.Proofs.Sender.Passage

/-!
The schedule as a function of the history. In a run without callbacks every
action leaves deeds behind: a codec registered, a key frame requested, an
encode call that succeeded, a request an internal source took. They are read
off the action, its answer and the journal. The schedule wants a key frame on
a stream exactly if the deed that raised the stream last has not been followed
by one that served it.
-/

namespace Simulcast

/-- What an action does to the wishes for key frames. -/
inductive Deed where
  /-- A codec was registered. -/
  | registered (codec : Codec)
  /-- A key frame was requested on a stream that exists. -/
  | requested (stream : Nat)
  /-- An encode call succeeded. -/
  | encoded
  /-- An internal source took a request made for a stream. -/
  | accepted (stream : Nat)
  deriving DecidableEq, Repr

namespace Deed

/-- From this deed on a key frame is wanted on stream `i`. -/
def Raises (i : Nat) : Deed → Prop
  | .registered _ => True
  | .requested j => j = i
  | .encoded | .accepted _ => False

/-- The deed gives stream `i` the key frame it wants, if it wants one. -/
def Serves (i : Nat) : Deed → Prop
  | .encoded => True
  | .accepted j => j = i
  | .registered _ | .requested _ => False

/-- Nothing has served stream `i` since the deed that raised it last.
Histories have the latest deed first. -/
def Wanted (i : Nat) (history : List Deed) : Prop :=
  ∃ after e before, history = after ++ e :: before ∧ e.Raises i ∧
    (∀ d ∈ after, ¬ d.Raises i) ∧ ∀ d ∈ after, ¬ d.Serves i

def codec? : Deed → Option Codec
  | .registered codec => some codec
  | .requested _ | .encoded | .accepted _ => none

theorem Raises.not_serves {i : Nat} {d : Deed} (h : d.Raises i) : ¬ d.Serves i := by
  cases d <;> simp_all [Raises, Serves]

variable {i : Nat} {d : Deed} {history : List Deed}

theorem wanted_cons_of_raises (h : d.Raises i) : Wanted i (d :: history) :=
  ⟨[], d, history, rfl, h, by simp, by simp⟩

theorem not_wanted_cons_of_serves (h : d.Serves i) : ¬ Wanted i (d :: history) := by
  rintro ⟨after, e, before, heq, hraises, _, hserves⟩
  cases after with
  | nil =>
      simp only [List.nil_append, List.cons.injEq] at heq
      exact hraises.not_serves (heq.1 ▸ h)
  | cons first rest =>
      simp only [List.cons_append, List.cons.injEq] at heq
      exact hserves first (by simp) (heq.1 ▸ h)

theorem wanted_cons_of_neither (hraises : ¬ d.Raises i) (hserves : ¬ d.Serves i) :
    Wanted i (d :: history) ↔ Wanted i history := by
  constructor
  · rintro ⟨after, e, before, heq, he, hnoraise, hnoserve⟩
    cases after with
    | nil =>
        simp only [List.nil_append, List.cons.injEq] at heq
        exact absurd (heq.1 ▸ he) hraises
    | cons first rest =>
        simp only [List.cons_append, List.cons.injEq] at heq
        exact ⟨rest, e, before, heq.2, he, fun d hd => hnoraise d (by simp [hd]),
          fun d hd => hnoserve d (by simp [hd])⟩
  · rintro ⟨after, e, before, rfl, he, hnoraise, hnoserve⟩
    refine ⟨d :: after, e, before, rfl, he, ?_, ?_⟩
    · simpa [hraises] using hnoraise
    · simpa [hserves] using hnoserve

theorem wanted_append_of_neither {new : List Deed}
    (h : ∀ d ∈ new, ¬ d.Raises i ∧ ¬ d.Serves i) :
    Wanted i (new ++ history) ↔ Wanted i history := by
  induction new with
  | nil => rfl
  | cons first rest ih =>
      obtain ⟨hraises, hserves⟩ := h first (by simp)
      rw [List.cons_append, wanted_cons_of_neither hraises hserves]
      exact ih fun d hd => h d (by simp [hd])

end Deed

/-- The codec registered last. -/
def registered? (history : List Deed) : Option Codec := history.findSome? Deed.codec?

theorem registered?_append_of_none {new : List Deed} (h : ∀ d ∈ new, d.codec? = none)
    (history : List Deed) : registered? (new ++ history) = registered? history := by
  have hnone : new.findSome? Deed.codec? = none := by
    rw [List.findSome?_eq_none_iff]
    exact h
  simp [registered?, List.findSome?_append, hnone]

/-- The deed that an entry written during an action shows. -/
def Event.deed? (a : Action) : Event → Option Deed
  | .answered _ (.encode _ _ _) none => some .encoded
  | .answered _ (.request _) none =>
      match a with
      | .call (.requestKey i) => some (.accepted i)
      | _ => none
  | _ => none

theorem Event.deed?_codec {e : Event} {a : Action} {d : Deed} (h : e.deed? a = some d) :
    d.codec? = none := by
  unfold Event.deed? at h
  split at h
  · rw [← Option.some.inj h]
    rfl
  · split at h
    · rw [← Option.some.inj h]
      rfl
    · simp at h
  · simp at h

theorem Event.Aside.deed? {e : Event} (h : e.Aside) (a : Action) : e.deed? a = none := by
  cases e <;> simp_all [Event.Aside, Event.deed?]

theorem Event.SetsUp.deed? {e : Event} (h : e.SetsUp) (a : Action) : e.deed? a = none := by
  cases e with
  | answered n c fault => cases c <;> simp_all [Event.SetsUp, EncoderCall.Uses, Event.deed?]
  | _ => rfl

theorem Event.CallsOn.deed? {e : Event} {n : Nat} {C R : EncoderCall → Prop}
    (h : e.CallsOn n C R)
    (hencode : ∀ f kinds info, C (.encode f kinds info) → ¬ R (.encode f kinds info))
    (hrequest : ∀ kinds, C (.request kinds) → ¬ R (.request kinds)) (a : Action) :
    e.deed? a = none := by
  cases e with
  | answered m c fault =>
      obtain ⟨_, hc, hr⟩ := h
      cases fault with
      | some fault => cases c <;> rfl
      | none =>
          cases c with
          | encode f kinds info => exact absurd (hr rfl) (hencode f kinds info hc)
          | request kinds => exact absurd (hr rfl) (hrequest kinds hc)
          | _ => rfl
  | _ => rfl

namespace Sender

/-- The number of streams of the codec registered last. -/
def streams (s : Sender) : Nat := (s.codec.map Codec.streamCount).getD 1

/-- What an action raises: a registration that succeeds every stream, a
request that is in range its own. -/
def raised (s : Sender) (a : Action) : List Deed :=
  match a with
  | .call (.register codec _ _) => if (s.act a).2 = .done then [.registered codec] else []
  | .call (.requestKey i) => if i < s.streams then [.requested i] else []
  | _ => []

/-- What an action does, the latest first. -/
def deeds (s : Sender) (a : Action) : List Deed :=
  (entriesSince s.rack.journal (s.act a).1.rack.journal).filterMap (Event.deed? a) ++ s.raised a

/-- What a run of actions does, the latest first. -/
def history (s : Sender) : List Action → List Deed
  | [] => []
  | a :: rest => (s.act a).1.history rest ++ s.deeds a

theorem deeds_eq {s : Sender} {a : Action} {new : List Event}
    (h : (s.act a).1.rack.journal = new ++ s.rack.journal) :
    s.deeds a = new.filterMap (Event.deed? a) ++ s.raised a := by
  rw [deeds, h, entriesSince_append]

/-- What becomes of the schedule and the codec in an action, by its deeds. -/
inductive Upshot (s s' : Sender) (deeds : List Deed) : Prop where
  | quiet (codec : s'.codec = s.codec) (schedule : s'.plan.schedule = s.plan.schedule)
      (none : deeds = [])
  | registered (new : Codec) (codec : s'.codec = some new)
      (schedule : s'.plan.schedule = s.plan.schedule.reset new.streamCount)
      (one : deeds = [.registered new])
  | requested (i : Nat) (codec : s'.codec = s.codec) (range : i < s.plan.schedule.size)
      (schedule : s'.plan.schedule = s.plan.schedule.mark i) (one : deeds = [.requested i])
  | encoded (more : List Deed) (codec : s'.codec = s.codec)
      (schedule : s'.plan.schedule = s.plan.schedule.clearSatisfied s.plan.schedule)
      (some : deeds = .encoded :: more) (others : ∀ d ∈ more, d.codec? = .none)
  | accepted (i : Nat) (more : List Deed) (codec : s'.codec = s.codec)
      (range : i < s.plan.schedule.size)
      (schedule : s'.plan.schedule = (s.plan.schedule.mark i).serve i)
      (some : deeds = .accepted i :: more ++ [.requested i])
      (others : ∀ d ∈ more, d = .accepted i)

/-- All there is to know of an action in a run without callbacks. -/
structure Effect (s : Sender) (a : Action) : Prop where
  upshot : Upshot s (s.act a).1 (s.deeds a)
  silent : (s.act a).1.callbacks.Silent
  unnested : ∀ e ∈ entriesSince s.rack.journal (s.act a).1.rack.journal, e.isNested = false
  kinds : ∀ n f kinds info,
    .called n (.encode f kinds info) ∈
      entriesSince s.rack.journal (s.act a).1.rack.journal →
    kinds = s.plan.schedule.kinds

variable {s s' : Sender}

theorem Interval.still {P : Event → Prop} {new : List Event} (h : Interval P s s' new)
    (hs : s.callbacks.Silent) :
    s'.callbacks.Silent ∧ s'.plan.schedule = s.plan.schedule := by
  obtain ⟨hsilent, hnested⟩ := h.silent hs
  refine ⟨hsilent, ?_⟩
  rw [h.schedule, Schedule.heed_of_not_nested _ _ hnested]

theorem Interval.effect {P : Event → Prop} {new : List Event} {a : Action}
    (h : Interval P s (s.act a).1 new) (hs : s.callbacks.Silent) (hraised : s.raised a = [])
    (hnone : ∀ e, P e → e.deed? a = none)
    (hkinds : ∀ n f kinds info, P (.called n (.encode f kinds info)) →
      kinds = s.plan.schedule.kinds) : s.Effect a := by
  obtain ⟨hsilent, hschedule⟩ := h.still hs
  have hdeeds : s.deeds a = [] := by
    rw [deeds_eq h.journal, hraised, List.append_nil, List.filterMap_eq_nil_iff]
    exact fun e he => hnone e (h.entries e he)
  refine ⟨.quiet h.codec hschedule hdeeds, hsilent, ?_, ?_⟩
  · rw [h.journal, entriesSince_append]
    exact (h.silent hs).2
  · intro n f kinds info hmem
    rw [h.journal, entriesSince_append] at hmem
    exact hkinds n f kinds info (h.entries _ hmem)

theorem Unregistered.effect {a : Action} (h : s.Unregistered (s.act a).1)
    (hs : s.callbacks.Silent) (hcallbacks : (s.act a).1.callbacks = s.callbacks)
    (hraised : s.raised a = []) : s.Effect a := by
  obtain ⟨new, hjournal, hnew⟩ := h.journal
  have hdeeds : s.deeds a = [] := by
    rw [deeds_eq hjournal, hraised, List.append_nil, List.filterMap_eq_nil_iff]
    exact fun e he => (hnew e he).deed? a
  refine ⟨.quiet h.codec h.schedule hdeeds, hcallbacks ▸ hs, ?_, ?_⟩
  · rw [hjournal, entriesSince_append]
    exact fun e he => (hnew e he).isNested
  · intro n f kinds info hmem
    rw [hjournal, entriesSince_append] at hmem
    exact absurd trivial (hnew _ hmem)

theorem register_callbacks (s : Sender) (codec : Codec) (cores : UInt32) (maxPayload : Nat) :
    (s.register codec cores maxPayload).1.callbacks = s.callbacks := by
  have hask : (s.askRegistry codec cores maxPayload).1.callbacks = s.callbacks := by
    unfold askRegistry
    split <;> rfl
  have hadopt : ∀ (t : Sender) handle,
      (t.adopt codec maxPayload handle).callbacks = t.callbacks := by
    intro t handle
    unfold adopt configureRate
    dsimp only
    split <;> rfl
  unfold register
  split
  · rfl
  · split
    · rename_i heq
      rw [hadopt, ← hask, heq]
    · rename_i heq
      rw [← hask, heq]
      rfl

theorem detach_callbacks (s : Sender) (payloadType : UInt8) :
    (s.detach payloadType).1.callbacks = s.callbacks := by
  unfold detach
  dsimp only
  split <;> rfl

theorem attach_callbacks (s : Sender) (payloadType : UInt8) (internalSource : Bool)
    (choice : EncoderChoice) :
    (s.attach payloadType internalSource choice).1.callbacks = s.callbacks := by
  unfold attach
  split <;> rfl

/-- A submission. What it carries is the schedule as it is. -/
theorem submit_effect (hs : s.callbacks.Silent) (frame : Frame) (info : Option SideInfo) :
    s.Effect (.call (.submit frame info)) := by
  cases hslot : s.slot with
  | none =>
      have heq : (s.act (.call (.submit frame info))).1 = s := by
        simp [act, call, begin, finish, runStage, encode, hslot]
      have h : Interval Event.Aside s (s.act (.call (.submit frame info))).1 [] := by
        rw [heq]
        exact Interval.refl _ s
      exact h.effect hs rfl (fun _ he => he.deed? _) fun _ _ _ _ he => he.elim
  | some slot =>
      have heq : (s.act (.call (.submit frame info))).1 =
          (s.encodeOn slot frame info s.plan).1 := by
        simp [act, call, begin, finish, runStage, encode, hslot, currentPlan]
      obtain ⟨mid, new, hmid, hend⟩ := s.encodeOn_end slot frame info s.plan
      rw [← heq] at hend
      have hkinds : ∀ n f kinds i,
          s.SubmissionEntry slot frame info s.plan (s.encodeOn slot frame info s.plan).2
            (.called n (.encode f kinds i)) → kinds = s.plan.schedule.kinds :=
        fun _ _ _ _ he => he.2.2.2.1
      rcases hend with ⟨hafter, hresult⟩ | ⟨hafter, _, f, rest, rfl⟩
      · rw [← hafter] at hmid
        refine hmid.effect hs rfl (fun e he => he.deed? ?_ ?_ _) hkinds
        · intro f kinds i _ hdone
          exact hresult kinds (hdone f kinds i rfl)
        · exact fun _ hc => hc.elim
      · obtain ⟨hsilent, hschedule⟩ := hmid.still hs
        have hjournal : (s.act (.call (.submit frame info))).1.rack.journal =
            (.answered slot.encoder (.encode f s.plan.schedule.kinds info) none :: rest) ++
              s.rack.journal := by
          rw [hafter]
          exact hmid.journal
        refine ⟨.encoded (rest.filterMap (Event.deed? (.call (.submit frame info)))) ?_ ?_ ?_ ?_,
          ?_, ?_, ?_⟩
        · rw [hafter]
          exact hmid.codec
        · rw [hafter, hschedule]
          rfl
        · rw [deeds_eq hjournal]
          simp [Event.deed?, raised]
        · intro d hd
          obtain ⟨e, _, he⟩ := List.mem_filterMap.mp hd
          exact Event.deed?_codec he
        · rw [hafter]
          exact hsilent
        · rw [hjournal, entriesSince_append]
          exact (hmid.silent hs).2
        · intro n f' kinds i hmem
          rw [hjournal, entriesSince_append] at hmem
          exact hkinds n f' kinds i (hmid.entries _ hmem)

theorem Interval.requested {P : Event → Prop} {new : List Event} {i : Nat} {mid : Sender}
    (h : Interval P (s.storeSchedule (s.plan.schedule.mark i)) mid new)
    (hs : s.callbacks.Silent) (hi : i < s.plan.schedule.size)
    (hact : (s.act (.call (.requestKey i))).1 = mid)
    (hraised : s.raised (.call (.requestKey i)) = [.requested i])
    (hnone : ∀ e, P e → e.deed? (.call (.requestKey i)) = none)
    (hkinds : ∀ n f kinds info, ¬ P (.called n (.encode f kinds info))) :
    s.Effect (.call (.requestKey i)) := by
  obtain ⟨hsilent, hschedule⟩ := h.still hs
  have hjournal : (s.act (.call (.requestKey i))).1.rack.journal = new ++ s.rack.journal := by
    rw [hact]
    exact h.journal
  refine ⟨.requested i ?_ hi ?_ ?_, ?_, ?_, ?_⟩
  · rw [hact]
    exact h.codec
  · rw [hact]
    exact hschedule
  · have hnew : new.filterMap (Event.deed? (.call (.requestKey i))) = [] := by
      rw [List.filterMap_eq_nil_iff]
      exact fun e he => hnone e (h.entries e he)
    rw [deeds_eq hjournal, hraised, hnew, List.nil_append]
  · rw [hact]
    exact hsilent
  · rw [hjournal, entriesSince_append]
    exact (h.silent hs).2
  · intro n f kinds info hmem
    rw [hjournal, entriesSince_append] at hmem
    exact absurd (h.entries _ hmem) (hkinds n f kinds info)

/-- A key frame request. An internal source is asked for a frame of the
stream at once, and if it takes the request, the stream is served again. -/
theorem requestKey_effect (hcoherent : s.Coherent) (hs : s.callbacks.Silent) (i : Nat) :
    s.Effect (.call (.requestKey i)) := by
  have hstreams : s.streams = s.plan.schedule.size := hcoherent.size.symm
  by_cases hi : i < s.plan.schedule.size
  · have hraised : s.raised (.call (.requestKey i)) = [.requested i] := by
      simp [raised, hstreams, hi]
    rcases s.call_requestKey i with hmarked | hact
    · have hnothing := Interval.refl Event.Aside (s.storeSchedule (s.plan.schedule.mark i))
      exact hnothing.requested hs hi hmarked hraised (fun _ he => he.deed? _) fun _ _ _ _ he => he
    · change (s.act (.call (.requestKey i))).1 = _ at hact
      rcases (s.storeSchedule (s.plan.schedule.mark i)).pullKey_end i with
        heq | ⟨slot, mid, new, _, _, _, ⟨hmid, heq⟩ | ⟨hmid, heq, rest, rfl⟩⟩
      · have hnothing := Interval.refl Event.Aside (s.storeSchedule (s.plan.schedule.mark i))
        exact hnothing.requested hs hi (hact.trans heq) hraised (fun _ he => he.deed? _)
          fun _ _ _ _ he => he
      · refine hmid.requested hs hi (hact.trans heq) hraised (fun e he => he.deed? ?_ ?_ _) ?_
        · exact fun _ _ _ _ hfalse => hfalse
        · exact fun _ _ hfalse => hfalse
        · rintro n f kinds info ⟨_, hc⟩
          exact EncoderCall.noConfusion hc
      · obtain ⟨hsilent, hschedule⟩ := hmid.still hs
        have hafter := hact.trans heq
        have hjournal : (s.act (.call (.requestKey i))).1.rack.journal =
            (.answered slot.encoder (.request (s.plan.schedule.mark i).kinds) none :: rest) ++
              s.rack.journal := by
          rw [hafter]
          exact hmid.journal
        refine ⟨.accepted i (rest.filterMap (Event.deed? (.call (.requestKey i)))) ?_ hi ?_ ?_ ?_,
          ?_, ?_, ?_⟩
        · rw [hafter]
          exact hmid.codec
        · rw [hafter, hschedule]
          rfl
        · rw [deeds_eq hjournal, hraised]
          simp [Event.deed?]
        · intro d hd
          obtain ⟨e, he, hd⟩ := List.mem_filterMap.mp hd
          have hentry := hmid.entries e (by simp [he])
          unfold Event.deed? at hd
          split at hd
          · -- Nothing was encoded: the only calls are requests.
            exact EncoderCall.noConfusion hentry.2.1
          · exact (Option.some.inj hd).symm
          · simp at hd
        · rw [hafter]
          exact hsilent
        · rw [hjournal, entriesSince_append]
          exact (hmid.silent hs).2
        · intro n f kinds info hmem
          rw [hjournal, entriesSince_append] at hmem
          exact EncoderCall.noConfusion (hmid.entries _ hmem).2
  · have hact : (s.act (.call (.requestKey i))).1 = s := by
      simp [act, call, begin, markKey, Schedule.requestKey_eq, hi, finish]
    have hraised : s.raised (.call (.requestKey i)) = [] := by simp [raised, hstreams, hi]
    have h : Interval Event.Aside s (s.act (.call (.requestKey i))).1 [] := by
      rw [hact]
      exact Interval.refl _ s
    exact h.effect hs hraised (fun _ he => he.deed? _) fun _ _ _ _ he => he.elim

theorem feedback_effect (hs : s.callbacks.Silent) (report : Feedback) :
    s.Effect (.call (.feedback report)) := by
  obtain ⟨n, new, hfeedback⟩ := s.feedback_interval report
  have hact : (s.act (.call (.feedback report))).1 = (s.call (.feedback report)).1 := rfl
  rw [← hact] at hfeedback
  refine hfeedback.effect hs rfl (fun e he => he.deed? ?_ ?_ _) ?_
  · rintro f kinds info ⟨rates, hc⟩
    exact EncoderCall.noConfusion hc
  · rintro kinds ⟨rates, hc⟩
    exact EncoderCall.noConfusion hc
  · rintro m f kinds info ⟨_, rates, hc⟩
    exact EncoderCall.noConfusion hc

theorem register_effect (hcoherent : s.Coherent) (hs : s.callbacks.Silent) (codec : Codec)
    (cores : UInt32) (maxPayload : Nat) :
    s.Effect (.call (.register codec cores maxPayload)) := by
  have hcallbacks : (s.act (.call (.register codec cores maxPayload))).1.callbacks = s.callbacks :=
    s.register_callbacks codec cores maxPayload
  rcases (register_end hcoherent codec cores maxPayload).2 with ⟨hdone, hreply⟩ | ⟨hfailed, hreply⟩
  · obtain ⟨new, hjournal, _, hnew⟩ := hdone.journal
    change (s.act (.call (.register codec cores maxPayload))).1.rack.journal =
      new ++ s.rack.journal at hjournal
    have hraised : s.raised (.call (.register codec cores maxPayload)) = [.registered codec] :=
      if_pos hreply
    have hnone : new.filterMap (Event.deed? (.call (.register codec cores maxPayload))) = [] := by
      rw [List.filterMap_eq_nil_iff]
      intro e he
      rcases hnew e he with hsetup | rfl
      · exact hsetup.deed? _
      · rfl
    refine ⟨.registered codec hdone.codec hdone.schedule ?_, hcallbacks ▸ hs, ?_, ?_⟩
    · rw [deeds_eq hjournal, hraised, hnone, List.nil_append]
    · rw [hjournal, entriesSince_append]
      intro e he
      rcases hnew e he with hsetup | rfl
      · exact hsetup.isNested
      · rfl
    · intro n f kinds info hmem
      rw [hjournal, entriesSince_append] at hmem
      rcases hnew _ hmem with hsetup | heq
      · exact absurd trivial hsetup
      · simp at heq
  · exact Unregistered.effect hfailed hs hcallbacks (if_neg hreply)

/-- Every action of a run without callbacks. -/
theorem act_effect (hcoherent : s.Coherent) (hs : s.callbacks.Silent) (a : Action) :
    s.Effect a := by
  by_cases hcall : ∃ c, a = .call c
  · obtain ⟨c, rfl⟩ := hcall
    cases c with
    | submit frame info => exact submit_effect hs frame info
    | requestKey i => exact requestKey_effect hcoherent hs i
    | feedback report => exact feedback_effect hs report
    | register codec cores maxPayload => exact register_effect hcoherent hs codec cores maxPayload
    | attach payloadType internalSource choice =>
        exact Unregistered.effect (attach_end hcoherent payloadType internalSource choice).2 hs
          (s.attach_callbacks payloadType internalSource choice) rfl
    | detach payloadType =>
        exact Unregistered.effect (detach_end hcoherent payloadType).2 hs
          (s.detach_callbacks payloadType) rfl
    | enableDropping on =>
        exact Unregistered.effect (enableDropping_end hcoherent on).2 hs rfl rfl
  · obtain ⟨new, hact⟩ := s.actInside_interval a fun i ha => hcall ⟨_, ha⟩
    have hraised : s.raised a = [] := by
      cases a with
      | call c => exact absurd ⟨c, rfl⟩ hcall
      | _ => rfl
    rw [← s.act_eq_actInside fun c hc => hcall ⟨c, hc⟩] at hact
    exact hact.effect hs hraised (fun _ he => he.aside.deed? _) fun _ _ _ _ he => he.elim

/-- The sender is where its history says. -/
structure Tracks (s : Sender) (past : List Deed) : Prop where
  silent : s.callbacks.Silent
  codec : registered? past = s.codec
  wanted : ∀ i < s.plan.schedule.size,
    s.plan.schedule.get? i = some .key ↔ Deed.Wanted i past

theorem Fresh.tracks (hs : s.Fresh) (hsilent : s.callbacks.Silent) : s.Tracks [] where
  silent := hsilent
  codec := hs.codec.symm
  wanted i hi := by
    have hzero : i = 0 := by
      simpa [hs.plan, Schedule.size] using hi
    subst hzero
    constructor
    · simp [hs.plan, Schedule.get?]
    · rintro ⟨after, e, before, heq, _⟩
      simp at heq

theorem Tracks.act {past : List Deed} (h : s.Tracks past) (a : Action)
    (heffect : s.Effect a) : (s.act a).1.Tracks (s.deeds a ++ past) := by
  refine ⟨heffect.silent, ?_, ?_⟩
  · cases heffect.upshot with
    | quiet hcodec _ hnone => rw [hnone, hcodec, List.nil_append, h.codec]
    | registered new hcodec _ hone =>
        rw [hone, hcodec]
        rfl
    | requested i hcodec _ _ hone =>
        rw [hone, hcodec, registered?_append_of_none (by simp [Deed.codec?]), h.codec]
    | encoded more hcodec _ hsome hothers =>
        rw [hsome, hcodec, registered?_append_of_none (by simpa [Deed.codec?] using hothers),
          h.codec]
    | accepted i more hcodec _ _ hsome hothers =>
        rw [hsome, hcodec, registered?_append_of_none ?_, h.codec]
        intro d hd
        have hcases : d = .accepted i ∨ d ∈ more ∨ d = .requested i := by simpa using hd
        rcases hcases with rfl | hmore | rfl
        · rfl
        · rw [hothers d hmore]
          rfl
        · rfl
  · -- The same five cases for one stream: a deed raises it, serves it or passes it by.
    intro i hi
    cases heffect.upshot with
    | quiet _ hschedule hnone =>
        rw [hschedule] at hi ⊢
        rw [hnone, List.nil_append]
        exact h.wanted i hi
    | registered new _ hschedule hone =>
        rw [hschedule] at hi ⊢
        rw [hone]
        have hkey : (s.plan.schedule.reset new.streamCount).get? i = some .key := by
          have hlt : i < max 1 new.streamCount := by simpa using hi
          simp [Schedule.get?, hlt]
        exact iff_of_true hkey (Deed.wanted_cons_of_raises trivial)
    | requested j _ hrange hschedule hone =>
        rw [hschedule] at hi ⊢
        rw [hone]
        by_cases hij : j = i
        · subst hij
          exact iff_of_true (Schedule.get?_mark_self _ _ hrange) (Deed.wanted_cons_of_raises rfl)
        · rw [Schedule.get?_mark_of_ne _ _ _ hij, List.singleton_append,
            Deed.wanted_cons_of_neither (i := i) (d := .requested j) hij id]
          exact h.wanted i (by simpa using hi)
    | encoded more _ hschedule hsome _ =>
        rw [hschedule, hsome]
        refine iff_of_false ?_ (Deed.not_wanted_cons_of_serves trivial)
        rw [Schedule.get?_clearSatisfied_eq_key_iff _ _ _ rfl]
        exact fun hkey => hkey.2 hkey.1
    | accepted j more _ hrange hschedule hsome hothers =>
        rw [hschedule] at hi ⊢
        rw [hsome]
        by_cases hij : j = i
        · subst hij
          refine iff_of_false ?_ (Deed.not_wanted_cons_of_serves rfl)
          rw [Schedule.get?_serve_self _ _ (by simpa using hrange)]
          simp
        · rw [Schedule.get?_serve_of_ne _ _ _ hij, Schedule.get?_mark_of_ne _ _ _ hij,
            Deed.wanted_append_of_neither ?_]
          · exact h.wanted i (by simpa using hi)
          · intro d hd
            have hcases : d = .accepted j ∨ d ∈ more ∨ d = .requested j := by simpa using hd
            rcases hcases with rfl | hmore | rfl
            · exact ⟨id, hij⟩
            · rw [hothers d hmore]
              exact ⟨id, hij⟩
            · exact ⟨hij, id⟩

theorem run_tracks {past : List Deed} (hcoherent : s.Coherent) (h : s.Tracks past)
    (actions : List Action) : (s.run actions).Tracks (s.history actions ++ past) := by
  induction actions generalizing s past with
  | nil => exact h
  | cons a rest ih =>
      have hact := h.act a (act_effect hcoherent h.silent a)
      have hrest := ih (act_coherent hcoherent a) hact
      rw [← List.append_assoc] at hrest
      exact hrest

/-- In a run without callbacks, whatever fails in it, the schedule has one
entry for every stream of the codec registered last, and wants a key frame
exactly where the last deed that raised the stream was followed by none that
served it. What an encode call carries is the schedule as it was before the
action that made the call. -/
theorem schedule_iff_history (hs : s.Fresh) (hsilent : s.callbacks.Silent)
    (actions : List Action) :
    (∀ codec, registered? (s.history actions) = some codec →
      (s.run actions).plan.schedule.size = codec.streamCount ∧
        ∀ i < codec.streamCount,
          (s.run actions).plan.schedule.get? i = some .key ↔
            Deed.Wanted i (s.history actions)) ∧
      ∀ a n f kinds info,
        .called n (.encode f kinds info) ∈
          entriesSince (s.run actions).rack.journal ((s.run actions).act a).1.rack.journal →
        kinds = (s.run actions).plan.schedule.kinds := by
  have hcoherent := run_coherent hs.coherent actions
  have htracks := run_tracks hs.coherent (hs.tracks hsilent) actions
  rw [List.append_nil] at htracks
  constructor
  · intro codec hcodec
    have hsize : (s.run actions).plan.schedule.size = codec.streamCount := by
      rw [hcoherent.size, ← htracks.codec, hcodec]
      rfl
    refine ⟨hsize, fun i hi => htracks.wanted i ?_⟩
    rwa [hsize]
  · intro a
    exact (act_effect hcoherent htracks.silent a).kinds

/-- Two streams, one of which is asked for again after the first encode call;
the next frame is dropped. -/
def askedAgain : List Action :=
  [sampleRegistration 2, sampleFeedback, .call (.submit sampleFrame none),
    .call (.requestKey 1), .setScript { drop := some true }, .call (.submit sampleFrame none)]

/-- The dropped frame leaves the request where it was. -/
theorem schedule_iff_history_askedAgain :
    sample.Fresh ∧ sample.callbacks.Silent ∧ Deed.Wanted 1 (sample.history askedAgain) ∧
      ¬ Deed.Wanted 0 (sample.history askedAgain) := by
  have hsilent : sample.callbacks.Silent := ⟨fun _ => rfl, rfl⟩
  have hcodec : registered? (sample.history askedAgain) = some (sampleCodec 2) := by
    decide +kernel
  obtain ⟨_, hwanted⟩ :=
    (schedule_iff_history sample_fresh hsilent askedAgain).1 (sampleCodec 2) hcodec
  refine ⟨sample_fresh, hsilent, ?_, ?_⟩
  · exact (hwanted 1 (by decide)).mp (by decide +kernel)
  · rw [← hwanted 0 (by decide)]
    decide +kernel

end Sender

end Simulcast
