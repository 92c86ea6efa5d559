import Mathlib.Data.List.Basic
import Simulcast.Proofs.Traffic.Copies

/-!
What the registration of a codec means for the submissions of all threads.
From then on every encode call of a frame driven encoder asks for key frames
only, until one of them succeeds. Copies of the plan taken before are told by
their generation and replaced; copies taken since ask for key frames
themselves, because nothing takes a wish back before a success.
-/

namespace Simulcast

namespace Schedule

/-- A key frame is wanted on every stream. -/
def AllKey (s : Schedule) : Prop := ∀ k ∈ s.kinds, k = .key

theorem reset_allKey (s : Schedule) (n : Nat) : (s.reset n).AllKey := by
  intro k hk
  exact List.eq_of_mem_replicate hk

theorem AllKey.mark {s : Schedule} (h : s.AllKey) (i : Nat) : (s.mark i).AllKey := by
  intro k hk
  rcases List.mem_or_eq_of_mem_set hk with hk | rfl
  · exact h k hk
  · rfl

theorem AllKey.heed {s : Schedule} (h : s.AllKey) (entries : List Event) :
    (s.heed entries).AllKey := by
  induction entries with
  | nil => exact h
  | cons e rest ih =>
      rcases s.heed_cons_cases e rest with heq | ⟨i, _, _, heq⟩
      · rwa [heq]
      · rw [heq]
        exact ih.mark i

end Schedule

namespace Sender

variable {C : EncoderCall → Prop} {s s' : Sender}

/-- As long as no codec is registered and no encode call succeeds, the wishes
for a frame driven encoder stay. -/
theorem Passage.allKey_of_eq (h : Passage C s s')
    (hregistrations : registrations s'.rack.journal = registrations s.rack.journal)
    (hencodings : encodings s'.rack.journal = encodings s.rack.journal)
    (hdriven : ∀ slot, s.slot = some slot → slot.internalSource = false)
    (hkeys : s.plan.schedule.AllKey) : s'.plan.schedule.AllKey := by
  induction h with
  | stretch h =>
      rw [h.schedule]
      exact hkeys.heed _
  | @settled s mid new h hencoded carried =>
      change encodings mid.rack.journal = encodings s.rack.journal at hencodings
      rw [h.journal, encodings_append] at hencodings
      omega
  | served h hslot hsource i =>
      rw [hdriven _ hslot] at hsource
      exact absurd hsource (by decide)
  | registered h _ =>
      rw [h.registrations] at hregistrations
      omega
  | unregistered h _ =>
      rw [h.schedule]
      exact hkeys
  | after h rest ih =>
      have hfirst := h.later
      have hrest := rest.later
      have hle1 := hfirst.registrations
      have hle2 := hrest.registrations
      have hle3 := hfirst.encodings
      have hle4 := hrest.encodings
      refine ih (by omega) (by omega) ?_ ?_
      · rw [h.slot]
        exact hdriven
      · rw [h.schedule]
        exact hkeys.heed _
  | marked i _ ih => exact ih hregistrations hencodings hdriven (hkeys.mark i)

/-- A passage in which a codec is registered ends with a key frame wanted on
every stream, whatever came before. -/
theorem Passage.allKey_of_ne (h : Passage C s s')
    (hregistrations : registrations s'.rack.journal ≠ registrations s.rack.journal) :
    s'.plan.schedule.AllKey := by
  induction h with
  | stretch h => exact absurd (h.registrations fun _ he => he.routine) hregistrations
  | settled h _ _ => exact absurd (h.registrations fun _ he => he.routine) hregistrations
  | served h _ _ _ => exact absurd (h.registrations fun _ he => he.routine) hregistrations
  | registered h _ =>
      rw [h.schedule]
      exact Schedule.reset_allKey _ _
  | unregistered h _ => exact absurd h.registrations hregistrations
  | after h _ ih =>
      apply ih
      rwa [h.registrations fun _ he => he.routine]
  | marked i _ ih => exact ih hregistrations

/-- A submission has the encoder to itself, so nothing is registered during
it. -/
theorem encode_registrations (s : Sender) (frame : Frame) (info : Option SideInfo)
    (copy : Plan) :
    registrations (s.encode frame info copy).1.rack.journal =
      registrations s.rack.journal := by
  obtain ⟨mid, new, hmid, _, hend⟩ := s.encode_end frame info copy
  rw [encode_journal (hend.imp And.left And.left)]
  exact hmid.registrations fun _ he => he

theorem encode_congr (s : Sender) (frame : Frame) (info : Option SideInfo) {copy other : Plan}
    (h : s.currentPlan copy = s.currentPlan other) :
    s.encode frame info copy = s.encode frame info other := by
  unfold encode
  rw [h]

end Sender

namespace Traffic

variable {t t' : Traffic}

/-- A copy under way after a step was under way before, or it was just taken
from the plan as it is. -/
theorem step_copy {move : Move} {n : Nat} {frame : Frame} {info : Option SideInfo} {copy : Plan}
    (h : (t.step move).calls[n]? = some (.reached (.waits (.encode frame info copy)))) :
    t.calls[n]? = some (.reached (.waits (.encode frame info copy))) ∨
      (copy = t.sender.plan ∧ (t.step move).sender = t.sender) := by
  cases move with
  | enter c =>
      simp only [step] at h ⊢
      rcases Nat.lt_or_ge n t.calls.length with hlt | hge
      · rw [List.getElem?_append_left hlt] at h
        exact Or.inl h
      · rw [List.getElem?_append_right hge] at h
        have hleg := List.mem_of_getElem? h
        rw [List.mem_singleton] at hleg
        exact Or.inr (enter_copy hleg.symm)
  | proceed k =>
      left
      cases hleg : t.calls[k]? with
      | none => simpa only [step, hleg] using h
      | some leg =>
          simp only [step, hleg] at h
          by_cases hkn : k = n
          · subst hkn
            have hlt : k < t.calls.length := (List.getElem?_eq_some_iff.mp hleg).1
            rw [List.getElem?_set_self hlt, Option.some.injEq] at h
            exact absurd h (proceed_no_copy _ _ _ _ _)
          · rwa [List.getElem?_set_ne hkn] at h
  | follow i => exact Or.inl h

/-- An encode call carries the kinds of the plan that a copy under way leads
to, or the schedule as it is. -/
theorem step_encode {move : Move} {f : Frame} {carried : List FrameKind}
    {info : Option SideInfo} (h : t.StepCall move (.encode f carried info)) :
    (∃ (n : Nat) (frame : Frame) (i : Option SideInfo) (copy : Plan),
      t.calls[n]? = some (Leg.reached (.waits (.encode frame i copy))) ∧
        carried = (t.sender.currentPlan copy).schedule.kinds) ∨
      carried = t.sender.plan.schedule.kinds := by
  cases move with
  | enter c => exact h.elim
  | proceed n =>
      obtain ⟨progress, hleg, stage, rfl, hcall⟩ := h
      obtain ⟨frame, i, copy, rfl, hkinds⟩ := hcall.encode
      exact Or.inl ⟨n, frame, i, copy, hleg, hkinds⟩
  | follow instruction =>
      obtain ⟨a, rfl, call, rfl, stage, hstage, hcall⟩ := h
      obtain ⟨frame, i, copy, rfl, hkinds⟩ := hcall.encode
      obtain ⟨_, hcopy, hsame⟩ := Sender.begin_encode hstage
      rw [hsame, hcopy, Sender.currentPlan, if_pos rfl] at hkinds
      exact Or.inr hkinds

/-- From `t` to `t'` no codec was registered and no encode call succeeded. -/
structure Awaits (t t' : Traffic) : Prop where
  registrations : registrations t'.sender.rack.journal = registrations t.sender.rack.journal
  encodings : encodings t'.sender.rack.journal = encodings t.sender.rack.journal

/-- The codec was registered for the frame driven encoder in the slot, and no
encode call has succeeded since: the live schedule and every copy under way
that is as young ask for key frames only. -/
structure Switched (t : Traffic) (codec : Codec) (handle : Handle) : Prop where
  coherent : t.sender.Coherent
  codec : t.sender.codec = some codec
  slot : t.sender.slot = some handle ∨ t.sender.slot = none
  keys : t.sender.plan.schedule.AllKey
  copies : ∀ (n : Nat) (frame : Frame) (info : Option SideInfo) (copy : Plan),
    t.calls[n]? = some (Leg.reached (.waits (.encode frame info copy))) →
    t.sender.plan.schedule.generation = copy.schedule.generation →
    copy.schedule.kinds = t.sender.plan.schedule.kinds

variable {codec : Codec} {handle : Handle}

theorem Switched.driven (h : t.Switched codec handle) (hdriven : handle.internalSource = false) :
    ∀ slot, t.sender.slot = some slot → slot.internalSource = false := by
  intro slot hslot
  rcases h.slot with hsome | hnone
  · rw [hsome, Option.some.injEq] at hslot
    rwa [← hslot]
  · rw [hnone] at hslot
    simp at hslot

theorem Switched.kinds (h : t.Switched codec handle) :
    t.sender.plan.schedule.kinds = List.replicate codec.streamCount .key :=
  List.eq_replicate_iff.mpr ⟨h.coherent.kinds_length h.codec, h.keys⟩

theorem Switched.step (h : t.Switched codec handle) (hdriven : handle.internalSource = false)
    {move : Move} (hawaits : t.Awaits (t.step move)) :
    (t.step move).Switched codec handle := by
  have hpassage := step_passage h.coherent move
  have hcoherent := hpassage.coherent h.coherent
  -- Nothing was registered and nothing succeeded, so wishes can only have been added; there
  -- was one for every stream already, and the schedule is what it was.
  obtain ⟨hcodec, hslot⟩ := hpassage.slot_of_eq hawaits.registrations
  have hkeys := hpassage.allKey_of_eq hawaits.registrations hawaits.encodings
    (h.driven hdriven) h.keys
  have hkinds : (t.step move).sender.plan.schedule.kinds = t.sender.plan.schedule.kinds := by
    rw [h.kinds]
    exact List.eq_replicate_iff.mpr ⟨hcoherent.kinds_length (hcodec.trans h.codec), hkeys⟩
  have hgeneration : (t.step move).sender.plan.schedule.generation =
      t.sender.plan.schedule.generation := by
    rw [hcoherent.generation, hawaits.registrations, ← h.coherent.generation]
  refine ⟨hcoherent, hcodec.trans h.codec, ?_, hkeys, ?_⟩
  · rcases hslot with hsame | hnone
    · rw [hsame]
      exact h.slot
    · exact Or.inr hnone
  · intro n frame info copy hcall heq
    rw [hkinds]
    rcases step_copy hcall with hold | ⟨hnew, _⟩
    · exact h.copies n frame info copy hold (hgeneration.symm.trans heq)
    · rw [hnew]

theorem Switched.run (h : t.Switched codec handle) (hdriven : handle.internalSource = false)
    (moves : List Move) (hawaits : t.Awaits (t.run moves)) :
    (t.run moves).Switched codec handle := by
  induction moves generalizing t with
  | nil => exact h
  | cons move rest ih =>
      have hstep := step_later h.coherent move
      have hrest := run_later (step_coherent h.coherent move) rest
      have hregistrations := hawaits.registrations
      have hencodings := hawaits.encodings
      have h1 := hstep.registrations
      have h2 := hstep.encodings
      have h3 := hrest.registrations
      have h4 := hrest.encodings
      change registrations ((t.step move).run rest).sender.rack.journal = _ at hregistrations
      change encodings ((t.step move).run rest).sender.rack.journal = _ at hencodings
      have hfirst : t.Awaits (t.step move) := ⟨by omega, by omega⟩
      exact ih (h.step hdriven hfirst) ⟨by omega, by omega⟩

/-- The copies under way when a codec is registered are all older. -/
theorem Switched.start {stamps : List Nat} (ht : t.sender.Coherent) (hstamped : t.Stamped stamps)
    {move : Move}
    (hregistered : registrations (t.step move).sender.rack.journal =
      registrations t.sender.rack.journal + 1)
    (hbound : registrations (t.step move).sender.rack.journal < UInt64.size)
    (hcodec : (t.step move).sender.codec = some codec)
    (hslot : (t.step move).sender.slot = some handle) :
    (t.step move).Switched codec handle := by
  have hpassage := step_passage ht move
  have hcoherent := hpassage.coherent ht
  have hne : registrations (t.step move).sender.rack.journal ≠
      registrations t.sender.rack.journal := by omega
  refine ⟨hcoherent, hcodec, Or.inl hslot, hpassage.allKey_of_ne hne, ?_⟩
  intro n frame info copy hcall heq
  rcases step_copy hcall with hold | ⟨_, hsame⟩
  · -- A copy from before has an older stamp, and generations tell stamps apart.
    have hlt : n < stamps.length := by
      rw [hstamped.length]
      exact (List.getElem?_eq_some_iff.mp hold).1
    have htook := hstamped.took n _ frame info copy (List.getElem?_eq_getElem hlt) hold
    have hle := htook.le
    rw [hcoherent.generation, htook.generation,
      Sender.ofNat_eq_iff_of_lt (by omega) (by omega)] at heq
    omega
  · exact absurd (by rw [hsame]) hne

/-- While a switched sender awaits its first success, an encode call asks for
key frames only, whichever copy it is made from. -/
theorem Switched.carries (h : t.Switched codec handle) (move : Move) {n : Nat} {f : Frame}
    {carried : List FrameKind} {info : Option SideInfo}
    (hcalled : .called n (.encode f carried info) ∈
      entriesSince t.sender.rack.journal (t.step move).sender.rack.journal) :
    carried = List.replicate codec.streamCount .key := by
  obtain ⟨new, hjournal, hcalls⟩ := (step_passage h.coherent move).journal
  rw [hjournal, entriesSince_append] at hcalled
  have hcall : t.StepCall move (.encode f carried info) := hcalls _ _ hcalled trivial
  rw [← h.kinds]
  rcases step_encode hcall with ⟨k, frame, i, copy, hcopy, hkinds⟩ | hkinds
  · rw [hkinds]
    unfold Sender.currentPlan
    split
    · rename_i hgeneration
      exact h.copies k frame i copy hcopy hgeneration
    · rfl
  · exact hkinds

/-- From `t` to `t'` a codec was registered, and a frame driven encoder serves
it. -/
structure Switches (t t' : Traffic) (codec : Codec) (handle : Handle) : Prop where
  registrations : registrations t'.sender.rack.journal =
    registrations t.sender.rack.journal + 1
  codec : t'.sender.codec = some codec
  slot : t'.sender.slot = some handle
  driven : handle.internalSource = false

/-- After a codec was registered for a frame driven encoder, every encode call
up to the first that succeeds carries a key frame for each of its streams,
whichever copies of the plan are encoded in whichever order; and until then
all of these are wanted. No submission takes part in two registrations, and
one made before the last of them goes as if it were made now. -/
theorem switch_forces_keys {s : Sender} (hs : s.Fresh) :
    (∀ before switch after codec handle,
      Switches (run { sender := s } before) ((run { sender := s } before).step switch)
        codec handle →
      Awaits ((run { sender := s } before).step switch)
        (((run { sender := s } before).step switch).run after) →
      registrations
        (((run { sender := s } before).step switch).run after).sender.rack.journal < UInt64.size →
      (((run { sender := s } before).step switch).run after).sender.plan.schedule.kinds =
          List.replicate codec.streamCount .key ∧
        ∀ last n f carried info,
          .called n (.encode f carried info) ∈
            entriesSince
              (((run { sender := s } before).step switch).run after).sender.rack.journal
              ((((run { sender := s } before).step switch).run after).step
                last).sender.rack.journal →
          carried = List.replicate codec.streamCount .key) ∧
      ∀ moves n stamp frame info copy,
        (run { sender := s } moves).calls[n]? =
          some (.reached (.waits (.encode frame info copy))) →
        (stamps { sender := s } moves)[n]? = some stamp →
        registrations (run { sender := s } moves).sender.rack.journal < UInt64.size →
        registrations ((run { sender := s } moves).step (.proceed n)).sender.rack.journal =
            registrations (run { sender := s } moves).sender.rack.journal ∧
          ((run { sender := s } moves).step (.proceed n)).sender.plan.schedule.generation =
            (run { sender := s } moves).sender.plan.schedule.generation ∧
          (stamp < registrations (run { sender := s } moves).sender.rack.journal →
            (run { sender := s } moves).sender.encode frame info copy =
              (run { sender := s } moves).sender.encode frame info
                (run { sender := s } moves).sender.plan) := by
  constructor
  · intro before switch after codec handle hswitch hawaits hbound
    have hcoherent : (run { sender := s } before).sender.Coherent :=
      run_coherent hs.coherent before
    have hstamped := run_stamped hs.coherent before
    have hregistrations := hawaits.registrations
    have hstart := Switched.start hcoherent hstamped hswitch.registrations
      (by rwa [hregistrations] at hbound) hswitch.codec hswitch.slot
    have hswitched := hstart.run hswitch.driven after hawaits
    exact ⟨hswitched.kinds, fun last _ _ _ _ hcalled => hswitched.carries last hcalled⟩
  · intro moves n stamp frame info copy hcall hstamp hbound
    have hcoherent : (run { sender := s } moves).sender.Coherent :=
      run_coherent hs.coherent moves
    have htook := (run_stamped hs.coherent moves).took n stamp frame info copy hstamp hcall
    have hstep : ((run { sender := s } moves).step (.proceed n)).sender =
        ((run { sender := s } moves).sender.encode frame info copy).1 := by
      simp only [step, hcall]
      rfl
    have hsame : registrations
        ((run { sender := s } moves).step (.proceed n)).sender.rack.journal =
          registrations (run { sender := s } moves).sender.rack.journal := by
      rw [hstep]
      exact Sender.encode_registrations _ frame info copy
    refine ⟨hsame, ?_, ?_⟩
    · rw [(step_coherent hcoherent (.proceed n)).generation, hsame, ← hcoherent.generation]
    · intro hlt
      -- A copy that old is replaced by the plan as it is.
      apply Sender.encode_congr
      have hne : ¬ (run { sender := s } moves).sender.plan.schedule.generation =
          copy.schedule.generation := by
        rw [htook.stamp_eq hcoherent (by omega)]
        omega
      rw [Sender.currentPlan, if_neg hne, Sender.currentPlan, if_pos rfl]

/-- A submission is made, another one encodes its frame, and one more is made
before a codec with two streams is registered. -/
def beforeSwitch : List Move :=
  [.follow (.act (Sender.sampleRegistration 1)), .follow (.act Sender.sampleFeedback),
    .enter (.submit Sender.sampleFrame none),
    .follow (.act (.call (.submit Sender.sampleFrame none))),
    .enter (.submit Sender.sampleFrame none)]

/-- The second of the two, whose copy asks for a delta frame on one stream,
carries two key frames. -/
theorem switch_forces_keys_beforeSwitch :
    Sender.sample.Fresh ∧
      ∀ n f carried info,
        .called n (.encode f carried info) ∈
          entriesSince
            ((run { sender := Sender.sample } beforeSwitch).step
              (.follow (.act (Sender.sampleRegistration 2)))).sender.rack.journal
            (((run { sender := Sender.sample } beforeSwitch).step
              (.follow (.act (Sender.sampleRegistration 2)))).step
                (.proceed 1)).sender.rack.journal →
        carried = [.key, .key] := by
  have hswitch : Switches (run { sender := Sender.sample } beforeSwitch)
      ((run { sender := Sender.sample } beforeSwitch).step
        (.follow (.act (Sender.sampleRegistration 2)))) (Sender.sampleCodec 2)
      ⟨1, false, false⟩ :=
    ⟨by decide +kernel, by decide +kernel, by decide +kernel, rfl⟩
  exact ⟨Sender.sample_fresh, ((switch_forces_keys Sender.sample_fresh).1 beforeSwitch _ []
    (Sender.sampleCodec 2) ⟨1, false, false⟩ hswitch ⟨rfl, rfl⟩ (by decide +kernel)).2
    (.proceed 1)⟩

end Traffic

end Simulcast
