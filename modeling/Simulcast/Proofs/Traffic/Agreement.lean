import Mathlib.Data.List.Induction
import Simulcast.Proofs.Registry.Lifecycle
import Simulcast.Proofs.Traffic.Copies

/-!
What a sender says of itself, told by the answers it gave. The slot is what the
registry has, the codec is the one registered last with success, and the
schedule belongs to it; so a submission that complains about a resolution can
always say which one it expected. Only registrations that succeed change the
length or the generation of the schedule.
-/

namespace Simulcast

/-- A complaint about a resolution names the one that was expected, which is
another one. -/
def Reply.Honest : Reply → Prop
  | .failed (.wrongResolution expected actual) => ∃ r, expected = some r ∧ r ≠ actual
  | _ => True

def Leg.Honest : Leg → Prop
  | .reached (.finished reply) => reply.Honest
  | _ => True

namespace Sender

variable {s s' : Sender}

/-- Neither offering rates nor asking whether to drop touches the registry or
the codec. -/
theorem asked_same (s : Sender) (slot : Handle) (plan : Plan) :
    (s.offerRates slot.encoder plan).askDrop.1.registry = s.registry ∧
      (s.offerRates slot.encoder plan).askDrop.1.codec = s.codec := by
  obtain ⟨new, h⟩ := s.offerRates_interval plan slot.encoder (P := fun _ => True)
    (fun _ => trivial) (fun _ => trivial) (fun _ _ => trivial)
  exact ⟨h.registry, h.codec⟩

theorem encodeOn_mismatch {slot : Handle} {frame : Frame} {info : Option SideInfo} {plan : Plan}
    {expected : Option Resolution} {actual : Resolution}
    (h : (s.encodeOn slot frame info plan).2 = .error (.wrongResolution expected actual)) :
    expected = s.codec.map (·.resolution) ∧ actual = frame.resolution ∧
      s.registry.accepts frame.resolution = false := by
  obtain ⟨hregistry, hcodec⟩ := s.asked_same slot plan
  unfold encodeOn at h
  cases hasked : (s.offerRates slot.encoder plan).askDrop with
  | mk t drop =>
  rw [hasked] at h hregistry hcodec
  dsimp only at h hregistry hcodec
  split at h
  · simp at h
  · split at h
    · simp at h
    · split at h
      · rename_i haccepts
        simp only [Except.error.injEq, SendError.wrongResolution.injEq] at h
        refine ⟨by rw [← h.1, hcodec], h.2.symm, ?_⟩
        rw [← hregistry]
        simpa using haccepts
      · split at h
        · simp at h
        · unfold encodeReadable at h
          split at h <;> simp at h

/-- The registry takes the resolution of the codec it serves, so a frame that
it does not take has another. -/
theorem encode_mismatch (hs : s.Coherent) {frame : Frame} {info : Option SideInfo} {copy : Plan}
    {expected : Option Resolution} {actual : Resolution}
    (h : (s.encode frame info copy).2 = .error (.wrongResolution expected actual)) :
    ∃ r, expected = some r ∧ r ≠ actual := by
  cases hslot : s.slot with
  | none => simp [encode, hslot] at h
  | some slot =>
      rw [s.encode_of_slot hslot] at h
      obtain ⟨hexpected, hactual, haccepts⟩ := encodeOn_mismatch h
      obtain ⟨codec, hcodec, hsend⟩ := hs.serving slot hslot
      refine ⟨codec.resolution, by simp [hexpected, hcodec], ?_⟩
      rw [hactual]
      have hother : codec.clamped.resolution ≠ frame.resolution := by
        simpa [Registry.accepts, hsend] using haccepts
      exact hother

theorem settleKey_honest (s : Sender) (stream : Nat) (asked : Schedule) :
    (s.settleKey stream asked).2.Honest := by
  unfold settleKey
  split
  · split <;> trivial
  · trivial

theorem pullKey_honest (s : Sender) (stream : Nat) : (s.pullKey stream).2.Honest := by
  unfold pullKey
  split
  · trivial
  · split
    · trivial
    · split
      · dsimp only
        split
        · trivial
        · exact settleKey_honest _ _ _
      · trivial

theorem ofRegistry_honest (e : RegistryError) :
    (Reply.failed (SendError.ofRegistry e)).Honest := by
  cases e <;> trivial

theorem runStage_honest (hs : s.Coherent) (stage : EncoderStage) :
    (s.runStage stage).2.Honest := by
  cases stage with
  | encode frame info copy =>
      show (Reply.ofSubmission (s.encode frame info copy).2).Honest
      cases hresult : (s.encode frame info copy).2 with
      | ok delivery => trivial
      | error e =>
          cases e with
          | wrongResolution expected actual => exact encode_mismatch hs hresult
          | _ => trivial
  | pullKey stream => exact s.pullKey_honest stream
  | pushRates rates =>
      simp only [runStage, pushRates]
      split
      · trivial
      · split <;> trivial
  | register codec cores maxPayload =>
      simp only [runStage, register]
      split
      · trivial
      · split
        · trivial
        · exact ofRegistry_honest _
  | attach payloadType internalSource choice =>
      simp only [runStage, attach]
      split <;> trivial
  | detach payloadType =>
      simp only [runStage, detach]
      split
      · exact ofRegistry_honest _
      · trivial
      · trivial
  | enableDropping on => trivial

theorem begin_honest (s : Sender) (c : Call) : (Leg.reached (s.begin c).2).Honest := by
  cases c with
  | requestKey stream =>
      simp only [begin, markKey]
      split
      · trivial
      · dsimp only
        split <;> trivial
  | feedback report =>
      simp only [begin, keepRates]
      split <;> trivial
  | _ => trivial

theorem finish_honest (hs : s.Coherent) {progress : Progress}
    (h : (Leg.reached progress).Honest) : (s.finish progress).2.Honest := by
  cases progress with
  | finished reply => exact h
  | waits stage => exact runStage_honest hs stage

/-- Whatever is done from outside is answered honestly. -/
theorem follow_honest (hs : s.Coherent) (i : Instruction) : (s.follow i).2.Honest := by
  cases i with
  | act a =>
      cases a with
      | call c =>
          have hbegun := begin_coherent hs c
          exact finish_honest hbegun (s.begin_honest c)
      | setFaults n patch =>
          simp only [follow, act, actInside]
          split <;> trivial
      | _ => trivial
  | onEncode n instructions =>
      simp only [follow, followInside, setOnEncode]
      split <;> trivial
  | onImage instructions => trivial

/-- The codec of a registration, if the sender says that it is done. -/
def accepts? (s : Sender) (codec : Codec) (cores : UInt32) (maxPayload : Nat) : Option Codec :=
  if (s.register codec cores maxPayload).2 = .done then some codec else none

/-- From `s` to `s'` nothing was registered, or the codec `new`. -/
structure Accepts (s s' : Sender) (new : Option Codec) : Prop where
  codec : s'.codec = new.or s.codec
  registrations : registrations s'.rack.journal = registrations s.rack.journal + new.toList.length

theorem Accepts.refl (s : Sender) : s.Accepts s none := ⟨rfl, rfl⟩

theorem Accepts.trans {s'' : Sender} {new : Option Codec} (h : s.Accepts s' none)
    (h' : s'.Accepts s'' new) : s.Accepts s'' new where
  codec := by rw [h'.codec, h.codec, Option.none_or]
  registrations := by rw [h'.registrations, h.registrations, Option.toList_none, List.length_nil,
    Nat.add_zero]

theorem Stretch.accepts {P : Event → Prop} {new : List Event} (h : Stretch P s s' new)
    (hP : ∀ e, P e → e.Routine) : s.Accepts s' none :=
  ⟨h.codec, h.registrations hP⟩

theorem Unregistered.accepts (h : s.Unregistered s') : s.Accepts s' none :=
  ⟨h.codec, h.registrations⟩

theorem register_accepts (hs : s.Coherent) (codec : Codec) (cores : UInt32) (maxPayload : Nat) :
    s.Accepts (s.register codec cores maxPayload).1 (s.accepts? codec cores maxPayload) := by
  obtain ⟨_, ⟨hregistered, hdone⟩ | ⟨hunregistered, hfailed⟩⟩ :=
    register_end hs codec cores maxPayload
  · rw [accepts?, if_pos hdone]
    exact ⟨hregistered.codec, hregistered.registrations⟩
  · rw [accepts?, if_neg hfailed]
    exact hunregistered.accepts

/-- The codec that a stage registers, if any. -/
def stageAccepts? (s : Sender) : EncoderStage → Option Codec
  | .register codec cores maxPayload => s.accepts? codec cores maxPayload
  | _ => none

theorem runStage_accepts (hs : s.Coherent) (stage : EncoderStage) :
    s.Accepts (s.runStage stage).1 (s.stageAccepts? stage) := by
  cases stage with
  | encode frame info copy =>
      obtain ⟨mid, new, hmid, _, hend⟩ := s.encode_end frame info copy
      show s.Accepts (s.encode frame info copy).1 none
      have haccepts : s.Accepts mid none := hmid.accepts fun _ he => he
      rcases hend with ⟨heq, _⟩ | ⟨heq, _⟩
      · rw [heq]
        exact haccepts
      · rw [heq]
        exact ⟨haccepts.codec, haccepts.registrations⟩
  | pullKey stream =>
      show s.Accepts (s.pullKey stream).1 none
      rcases s.pullKey_end stream with
        heq | ⟨slot, mid, new, _, _, _, ⟨hmid, heq⟩ | ⟨hmid, heq, _⟩⟩
      · rw [heq]
        exact .refl s
      · rw [heq]
        exact hmid.accepts fun _ he => he.routine fun _ hc => hc ▸ trivial
      · have haccepts : s.Accepts mid none :=
          hmid.accepts fun _ he => he.routine fun _ hc => hc ▸ trivial
        rw [heq]
        exact ⟨haccepts.codec, haccepts.registrations⟩
  | pushRates rates =>
      show s.Accepts (s.pushRates rates).1 none
      rcases s.pushRates_end rates with ⟨_, heq⟩ | ⟨slot, new, _, hpush⟩
      · rw [heq]
        exact .refl s
      · exact hpush.accepts fun _ he => he.routine fun _ hc => hc ▸ trivial
  | register codec cores maxPayload => exact register_accepts hs codec cores maxPayload
  | attach payloadType internalSource choice =>
      exact (attach_end hs payloadType internalSource choice).2.accepts
  | detach payloadType => exact (detach_end hs payloadType).2.accepts
  | enableDropping on => exact (enableDropping_end hs on).2.accepts

theorem begin_accepts (s : Sender) (c : Call) : s.Accepts (s.begin c).1 none := by
  rcases s.begin_cases c with ⟨i, _, hmarked⟩ | ⟨_, new, hbegin⟩
  · rw [hmarked]
    exact ⟨rfl, rfl⟩
  · exact hbegin.accepts fun _ he => he.routine

/-- What is left of a call registers the codec that its stage registers. -/
def progressAccepts? (s : Sender) : Progress → Option Codec
  | .waits stage => s.stageAccepts? stage
  | .finished _ => none

theorem finish_accepts (hs : s.Coherent) (progress : Progress) :
    s.Accepts (s.finish progress).1 (s.progressAccepts? progress) := by
  cases progress with
  | waits stage => exact runStage_accepts hs stage
  | finished reply => exact .refl s

/-- The codec that an instruction from outside registers, if any. -/
def followAccepts? (s : Sender) : Instruction → Option Codec
  | .act (.call c) => (s.begin c).1.progressAccepts? (s.begin c).2
  | _ => none

theorem followAccepts?_eq_none (s : Sender) {i : Instruction} (h : ∀ c, i ≠ .act (.call c)) :
    s.followAccepts? i = none := by
  cases i with
  | act a =>
      cases a with
      | call c => exact absurd rfl (h c)
      | _ => rfl
  | _ => rfl

theorem follow_accepts (hs : s.Coherent) (i : Instruction) :
    s.Accepts (s.follow i).1 (s.followAccepts? i) := by
  by_cases hcall : ∃ c, i = .act (.call c)
  · obtain ⟨c, rfl⟩ := hcall
    exact (s.begin_accepts c).trans (finish_accepts (begin_coherent hs c) (s.begin c).2)
  · have hother : ∀ c, i ≠ .act (.call c) := fun c hc => hcall ⟨c, hc⟩
    obtain ⟨new, h⟩ := s.follow_stretch hother
    rw [s.followAccepts?_eq_none hother]
    exact h.accepts fun _ he => he.routine

end Sender

/-- The registry is sound, and no sender registered anything with it. -/
structure Station.Unsent (t : Station) : Prop where
  sound : t.registry.Sound t.rack
  registrations : registrations t.rack.journal = 0

theorem Station.Unsent.of_setup {t t' : Station} (h : t.Unsent)
    (hsound : t'.registry.Sound t'.rack) (hsetup : t.rack.Setup t'.rack) : t'.Unsent where
  sound := hsound
  registrations := by
    obtain ⟨new, hjournal, hnew⟩ := hsetup.journal
    rw [hjournal, registrations_append, Sender.registrations_of_setsUp hnew, h.registrations]

theorem Station.Unsent.of_alike {t t' : Station} (h : t.Unsent)
    (hregistry : t'.registry = t.registry) (halike : t.rack.Alike t'.rack) {new : List Event}
    (hjournal : t'.rack.journal = new ++ t.rack.journal) (hnew : ∀ e ∈ new, e.Routine) :
    t'.Unsent where
  sound := hregistry ▸ h.sound.of_alike halike hjournal hnew
  registrations := by
    rw [hjournal, registrations_append, registrations_of_routine hnew, h.registrations]

theorem Station.step_unsent {t : Station} (h : t.Unsent) (c : RegistryCall) :
    (t.step c).Unsent := by
  cases c with
  | setBlueprint kind blueprint =>
      exact ⟨⟨h.sound.active, h.sound.idle, h.sound.attached⟩, h.registrations⟩
  | register codec cores maxPayload =>
      cases hfault : codec.fault? with
      | some fault =>
          have heq : t.step (.register codec cores maxPayload) = t := by
            simp [step, Registry.register, hfault]
          rwa [heq]
      | none =>
          have hreplaced := Registry.register_replaced codec cores maxPayload h.sound hfault
          exact h.of_setup hreplaced.sound hreplaced.setup
  | attach payloadType internalSource choice =>
      cases hchoice : t.rack.choose choice with
      | none => simpa only [step, hchoice] using h
      | some found =>
          obtain ⟨hsetup, hjournal, hlt⟩ := Rack.choose_setup hchoice
          simp only [step, hchoice]
          exact h.of_setup (h.sound.attach hsetup hjournal payloadType internalSource hlt) hsetup
  | detach payloadType =>
      have hdetached := Registry.detach_detached payloadType h.sound
      exact h.of_setup hdetached.sound hdetached.setup
  | encode frame kinds =>
      obtain ⟨halike, new, hjournal, hnew⟩ := t.registry.encode_end t.rack frame kinds
      exact h.of_alike rfl halike hjournal hnew
  | setFaults n patch =>
      have hjournal : (t.rack.setFaults n patch).journal = [] ++ t.rack.journal := rfl
      exact h.of_alike rfl (t.rack.setFaults_alike n patch) hjournal (by simp)

theorem Station.run_unsent {t : Station} (h : t.Unsent) (calls : List RegistryCall) :
    (t.run calls).Unsent := by
  induction calls generalizing t with
  | nil => exact h
  | cons c rest ih => exact ih (step_unsent h c)

/-- A sender set up over the registry of `t`. -/
def Sender.startWith (o : SenderOptions) (now : Millis) (t : Station) : Sender :=
  { start o now with
    registry := t.registry
    rack := { t.rack with journal := (start o now).rack.journal ++ t.rack.journal } }

/-- Whatever was done to the registry before, all that matters to the sender is
that no encoder is active. -/
theorem Sender.startWith_fresh (o : SenderOptions) (now : Millis) (encoders : Array Encoder)
    (calls : List RegistryCall)
    (h : ((Station.start encoders).run calls).registry.active = none) :
    (startWith o now ((Station.start encoders).run calls)).Fresh := by
  have hstart : (Station.start encoders).Unsent := ⟨⟨nofun, fun _ => rfl, nofun⟩, rfl⟩
  have hunsent := Station.run_unsent hstart calls
  have hfresh := start_fresh o now
  have hcount : registrations
      ((start o now).rack.journal ++ ((Station.start encoders).run calls).rack.journal) = 0 := by
    rw [registrations_append, hfresh.unregistered, hunsent.registrations]
  exact ⟨hfresh.slot, hfresh.codec, hfresh.plan, h, hunsent.sound.idle h, hunsent.sound.attached,
    hcount⟩

namespace Traffic

variable {t : Traffic}

/-- The codec that a move registers, if any. -/
def accepted? (t : Traffic) : Move → Option Codec
  | .enter _ => none
  | .proceed n =>
      match t.calls[n]? with
      | some (.reached progress) => t.sender.progressAccepts? progress
      | _ => none
  | .follow i => t.sender.followAccepts? i

/-- The codecs that were registered with success, the latest first. -/
def accepted (t : Traffic) : List Move → List Codec
  | [] => []
  | move :: rest => (t.step move).accepted rest ++ (t.accepted? move).toList

theorem accepted_snoc (t : Traffic) (moves : List Move) (move : Move) :
    t.accepted (moves ++ [move]) =
      ((t.run moves).accepted? move).toList ++ t.accepted moves := by
  induction moves generalizing t with
  | nil => simp [accepted, run]
  | cons first rest ih =>
      rw [List.cons_append, accepted, ih, accepted, List.append_assoc]
      rfl

theorem step_accepts (ht : t.sender.Coherent) (move : Move) :
    t.sender.Accepts (t.step move).sender (t.accepted? move) := by
  cases move with
  | enter c =>
      show t.sender.Accepts (t.sender.enter c).1 none
      rcases enter_cases t.sender c with ⟨report, rfl, heq⟩ | heq
      · rw [heq]
        obtain ⟨new, h⟩ := t.sender.regulate_interval report
        exact h.accepts fun _ he => he.routine
      · rw [heq]
        exact t.sender.begin_accepts c
  | proceed n =>
      cases hleg : t.calls[n]? with
      | none =>
          simp only [step, accepted?, hleg]
          exact .refl _
      | some leg =>
          simp only [step, accepted?, hleg]
          cases leg with
          | regulated rates =>
              obtain ⟨new, h⟩ := t.sender.keepRates_interval rates
              exact h.accepts fun _ he => he.routine
          | reached progress => exact Sender.finish_accepts ht progress
  | follow i => exact Sender.follow_accepts ht i

theorem step_honest (ht : t.sender.Coherent) (h : ∀ leg ∈ t.calls, leg.Honest) (move : Move) :
    ∀ leg ∈ (t.step move).calls, leg.Honest := by
  cases move with
  | enter c =>
      intro leg hleg
      rcases List.mem_append.mp hleg with hold | hnew
      · exact h leg hold
      · have hentered : leg = (t.sender.enter c).2 := List.mem_singleton.mp hnew
        rcases enter_cases t.sender c with ⟨report, rfl, heq⟩ | heq
        · rw [hentered, heq]
          trivial
        · rw [hentered, heq]
          exact t.sender.begin_honest c
  | proceed n =>
      cases hleg : t.calls[n]? with
      | none =>
          simp only [step, hleg]
          exact h
      | some old =>
          simp only [step, hleg]
          intro leg hmem
          rcases List.mem_or_eq_of_mem_set hmem with hold | hnew
          · exact h leg hold
          · rw [hnew]
            cases old with
            | regulated rates =>
                simp only [Sender.proceed, Sender.keepRates]
                split <;> trivial
            | reached progress =>
                exact Sender.finish_honest ht (h _ (List.mem_of_getElem? hleg))
  | follow i => exact h

theorem run_honest (ht : t.sender.Coherent) (h : ∀ leg ∈ t.calls, leg.Honest)
    (moves : List Move) : ∀ leg ∈ (t.run moves).calls, leg.Honest := by
  induction moves generalizing t with
  | nil => exact h
  | cons move rest ih => exact ih (step_coherent ht move) (step_honest ht h move)

/-- A sender that registered the codecs `accepted`, the latest first. -/
structure Agrees (s : Sender) (accepted : List Codec) : Prop where
  /-- The slot has the registry's encoder, with its capabilities. -/
  slot : s.slot = s.registry.encoder?
  sendCodec : s.slot = none ↔ s.registry.sendCodec = none
  source : s.plan.internalSource = (s.slot.map Handle.internalSource).getD false
  codec : s.codec = accepted.head?
  clamped : s.slot ≠ none → s.registry.sendCodec = s.codec.map Codec.clamped
  size : s.plan.schedule.size = (accepted.head?.map Codec.streamCount).getD 1
  generation : s.plan.schedule.generation = UInt64.ofNat accepted.length

theorem agrees_of_coherent {s : Sender} {accepted : List Codec} (hs : s.Coherent)
    (hcodec : s.codec = accepted.head?)
    (hlength : registrations s.rack.journal = accepted.length) : Agrees s accepted where
  slot := hs.slot
  sendCodec := by
    constructor
    · intro hnone
      apply hs.registry.idle
      simpa [hs.slot, Registry.encoder?] using hnone
    · intro hnone
      cases hslot : s.slot with
      | none => rfl
      | some handle =>
          obtain ⟨codec, _, hsend⟩ := hs.serving handle hslot
          rw [hnone] at hsend
          simp at hsend
  source := hs.source
  codec := hcodec
  clamped := by
    intro hsome
    obtain ⟨handle, hslot⟩ := Option.ne_none_iff_exists'.mp hsome
    obtain ⟨codec, hcodec, hsend⟩ := hs.serving handle hslot
    rw [hsend, hcodec]
    rfl
  size := by rw [hs.size, hcodec]
  generation := by rw [hs.generation, hlength]

theorem run_accepted {s : Sender} (hs : s.Fresh) (moves : List Move) :
    (run { sender := s } moves).sender.codec = (accepted { sender := s } moves).head? ∧
      registrations (run { sender := s } moves).sender.rack.journal =
        (accepted { sender := s } moves).length := by
  induction moves using List.reverseRecOn with
  | nil => exact ⟨hs.codec, hs.unregistered⟩
  | append_singleton moves move ih =>
      obtain ⟨hcodec, hlength⟩ := ih
      have hcoherent : (run { sender := s } moves).sender.Coherent :=
        run_coherent hs.coherent moves
      have hstep := step_accepts hcoherent move
      rw [run_snoc, accepted_snoc]
      constructor
      · rw [hstep.codec, hcodec]
        cases (run { sender := s } moves).accepted? move <;> rfl
      · rw [hstep.registrations, hlength, List.length_append, Nat.add_comm]

/-- At every point of every run slot, registry, codec, plan and answers agree;
a move that registers nothing leaves length and generation of the schedule
alone; and complaints about a resolution name the one that was expected. -/
theorem agreement_kept {s : Sender} (hs : s.Fresh) (moves : List Move) :
    Agrees (run { sender := s } moves).sender (accepted { sender := s } moves) ∧
      (∀ move, (run { sender := s } moves).accepted? move = none →
        ((run { sender := s } moves).step move).sender.plan.schedule.size =
            (run { sender := s } moves).sender.plan.schedule.size ∧
          ((run { sender := s } moves).step move).sender.plan.schedule.generation =
            (run { sender := s } moves).sender.plan.schedule.generation) ∧
      (∀ n reply, (run { sender := s } moves).reply? n = some reply → reply.Honest) ∧
      ∀ i, ((run { sender := s } moves).sender.follow i).2.Honest := by
  have hcoherent : (run { sender := s } moves).sender.Coherent := run_coherent hs.coherent moves
  obtain ⟨hcodec, hlength⟩ := run_accepted hs moves
  refine ⟨agrees_of_coherent hcoherent hcodec hlength, ?_, ?_, ?_⟩
  · intro move hnone
    have hnext := step_coherent hcoherent move
    have hstep := step_accepts hcoherent move
    rw [hnone] at hstep
    constructor
    · rw [hnext.size, hstep.codec, Option.none_or, ← hcoherent.size]
    · rw [hnext.generation, hstep.registrations, hcoherent.generation]
      rfl
  · intro n reply hreply
    have hhonest : ∀ leg ∈ (run { sender := s } moves).calls, leg.Honest :=
      run_honest hs.coherent (by simp) moves
    unfold reply? at hreply
    split at hreply
    · rename_i r hleg
      obtain rfl := Option.some.inj hreply
      exact hhonest _ (List.mem_of_getElem? hleg)
    · simp at hreply
  · exact Sender.follow_honest hcoherent

/-- A registry whose only encoder was in use once, detached, and is attached
again as one with an internal source. -/
def retired : Station :=
  (Station.start #[]).run
    [.attach 96 false (.fresh {}), .register {} 1 1200, .detach 96, .attach 96 true (.existing 0)]

/-- A codec with three streams is registered, and one without a width is not. -/
def refused : List Move :=
  [.follow (.act (Sender.sampleRegistration 3)),
    .follow (.act (.call (.register { resolution := ⟨0, 2⟩ } 1 1200)))]

/-- The refused registration leaves the codec, its three streams and the
attached encoder with its internal source. -/
theorem agreement_kept_refused :
    (Sender.startWith {} 0 retired).Fresh ∧
      accepted { sender := Sender.startWith {} 0 retired } refused = [Sender.sampleCodec 3] ∧
      Agrees (run { sender := Sender.startWith {} 0 retired } refused).sender
        (accepted { sender := Sender.startWith {} 0 retired } refused) := by
  have hidle : retired.registry.active = none := by decide +kernel
  have hfresh : (Sender.startWith {} 0 retired).Fresh := Sender.startWith_fresh {} 0 #[] _ hidle
  exact ⟨hfresh, by decide +kernel, (agreement_kept hfresh refused).1⟩

end Traffic

end Simulcast
