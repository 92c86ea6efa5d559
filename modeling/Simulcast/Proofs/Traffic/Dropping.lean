import Mathlib.Data.List.Basic
import Simulcast.Proofs.Sender.Courses
import Simulcast.Proofs.Traffic.Agreement

/-!
Whether frames may be dropped. Two kinds of call decide on it: a registration
that succeeds, and an explicit request. Each tells rate control at once, and
nothing else does, so what rate control was told last is a function of the
decisions made so far, in their order. A registration weighs what its codec
requires against the last request. A request weighs nothing: made while a codec
is registered that forbids dropping, it is passed on as it is. That is exactly
when rate control is told otherwise than codec and request together ask for.
-/

namespace Simulcast

/-- A decision on whether frames may be dropped. -/
inductive Decision where
  | registered (codec : Codec)
  | requested (on : Bool)
  deriving DecidableEq

namespace Decision

/-- The codec registered last. Of decisions made the latest comes first. -/
def codec? : List Decision → Option Codec
  | [] => none
  | .registered codec :: _ => some codec
  | .requested _ :: earlier => codec? earlier

/-- What was requested last. -/
def wish? : List Decision → Option Bool
  | [] => none
  | .requested on :: _ => some on
  | .registered _ :: earlier => wish? earlier

/-- What rate control is told by the last decision. -/
def told? : List Decision → Option Bool
  | [] => none
  | .requested on :: _ => some on
  | .registered codec :: earlier => some (!codec.forbidsDropping && (wish? earlier).getD true)

/-- Frames may be dropped unless the codec forbids it or the last request was
not to. -/
def policy (codec : Codec) (wish : Option Bool) : Bool :=
  !codec.forbidsDropping && wish != some false

theorem getD_wish (wish : Option Bool) : wish.getD true = (wish != some false) := by
  cases wish with
  | none => rfl
  | some on => cases on <;> rfl

/-- Rate control is told what codec and request together ask for, unless the
codec forbids dropping and was overruled by a request. -/
theorem told_iff {decisions : List Decision} {codec : Codec}
    (hcodec : codec? decisions = some codec) :
    ∃ on, told? decisions = some on ∧
      (on = policy codec (wish? decisions) ↔
        ¬ (codec.forbidsDropping = true ∧ decisions.head? = some (.requested true))) := by
  cases decisions with
  | nil => simp [codec?] at hcodec
  | cons last earlier =>
      cases last with
      | registered own =>
          obtain rfl := Option.some.inj hcodec
          refine ⟨_, rfl, ?_⟩
          simp [policy, wish?, getD_wish]
      | requested on =>
          refine ⟨on, rfl, ?_⟩
          cases on <;> simp [policy, wish?]

end Decision

/-- What an entry says rate control is told. -/
def Event.told? : Event → Option Bool
  | .rate (.dropping on) => some on
  | _ => none

/-- What rate control was told last. -/
def lastTold? (journal : List Event) : Option Bool := journal.findSome? Event.told?

theorem lastTold?_cons {e : Event} (h : e.told? = none) (old : List Event) :
    lastTold? (e :: old) = lastTold? old := by
  simp [lastTold?, h]

theorem lastTold?_append {new : List Event} (h : ∀ e ∈ new, e.told? = none) (old : List Event) :
    lastTold? (new ++ old) = lastTold? old := by
  have hnone : new.findSome? Event.told? = none := by
    rw [List.findSome?_eq_none_iff]
    exact h
  simp [lastTold?, List.findSome?_append, hnone]

namespace RateController

/-- Whether frames may be dropped, if the controller is one that drops any. -/
def dropping? : RateController → Option Bool
  | .scripted _ => none
  | .regulated r => some r.bucket.enabled

theorem dropping?_patch (r : RateController) (p : RateScript.Patch) :
    (r.patch p).dropping? = r.dropping? := by
  cases r <;> rfl

theorem dropping?_configure (r : RateController) (limits : EncodingLimits) :
    (r.configure limits).dropping? = r.dropping? := by
  cases r <;> rfl

theorem dropping?_enableDropping {r : RateController} {on b : Bool}
    (h : (r.enableDropping on).dropping? = some b) : b = on := by
  cases r with
  | scripted script => simp [enableDropping, dropping?] at h
  | regulated regulator => exact (Option.some.inj h).symm

/-- No question changes whether frames may be dropped. -/
theorem Asked.dropping? {r r' : RateController} {now : Millis} {c : RateCall}
    (h : r.Asked now c r') : r'.dropping? = r.dropping? := by
  cases r with
  | scripted script => cases h <;> rfl
  | regulated regulator =>
      cases h with
      | drop => exact congrArg some (LeakyBucket.leak_enabled _ _)
      | accounted image => exact congrArg some (LeakyBucket.fill_enabled _ _)
      | _ => rfl

theorem Asked.told? {r r' : RateController} {now : Millis} {c : RateCall} (h : r.Asked now c r') :
    (Event.rate c).told? = none := by
  cases h <;> rfl

end RateController

namespace Sender

variable {s s' : Sender} {decisions : List Decision}

/-- From `s` to `s'` nothing was decided. -/
structure Undecided (s s' : Sender) : Prop where
  codec : s'.codec = s.codec
  dropping : s'.dropping = s.dropping
  told : lastTold? s'.rack.journal = lastTold? s.rack.journal
  rate : s'.rate.dropping? = s.rate.dropping?

theorem SmallStep.undecided (h : s.SmallStep s') : s.Undecided s' := by
  cases h with
  | noted e plain =>
      have hnone : e.told? = none := by
        cases e <;> first | rfl | exact plain.elim
      exact ⟨rfl, rfl, lastTold?_cons hnone _, rfl⟩
  | asked asked => exact ⟨rfl, rfl, lastTold?_cons asked.told? _, asked.dropping?⟩
  | scripted patch => exact ⟨rfl, rfl, rfl, s.rate.dropping?_patch patch⟩
  | supplied registry journal entries =>
      refine ⟨rfl, rfl, ?_, rfl⟩
      show lastTold? _ = _
      rw [journal, lastTold?_append]
      intro e he
      have hentry := entries e he
      cases e <;> first | rfl | exact hentry.elim
  | _ => exact ⟨rfl, rfl, rfl, rfl⟩

theorem Steps.undecided (h : s.Steps s') : s.Undecided s' := by
  induction h with
  | refl => exact ⟨rfl, rfl, rfl, rfl⟩
  | tail _ hstep ih =>
      have hlast := hstep.undecided
      exact ⟨hlast.codec.trans ih.codec, hlast.dropping.trans ih.dropping,
        hlast.told.trans ih.told, hlast.rate.trans ih.rate⟩

/-- The sender is where the decisions leave it. -/
structure Follows (s : Sender) (decisions : List Decision) : Prop where
  codec : s.codec = Decision.codec? decisions
  dropping : s.dropping = Decision.wish? decisions
  told : lastTold? s.rack.journal = Decision.told? decisions
  rate : ∀ b on, s.rate.dropping? = some b → Decision.told? decisions = some on → b = on

theorem Undecided.follows (h : s.Undecided s') (hs : s.Follows decisions) :
    s'.Follows decisions :=
  ⟨h.codec.trans hs.codec, h.dropping.trans hs.dropping, h.told.trans hs.told,
    h.rate ▸ hs.rate⟩

theorem Follows.enableDropping (h : s.Follows decisions) (on : Bool) :
    (s.enableDropping on).Follows (.requested on :: decisions) where
  codec := h.codec
  dropping := rfl
  told := rfl
  rate b told hb htold := by
    obtain rfl := Option.some.inj htold
    exact RateController.dropping?_enableDropping hb

theorem Follows.adopt (h : s.Follows decisions) (codec : Codec) (maxPayload : Nat)
    (handle : Handle) :
    (s.adopt codec maxPayload handle).Follows (.registered codec :: decisions) := by
  have hmay : s.mayDrop codec =
      (!codec.forbidsDropping && (Decision.wish? decisions).getD true) := by
    rw [mayDrop, h.dropping]
  have htold : ∀ newer, (∀ e ∈ newer, e.told? = none) →
      lastTold? (newer ++ .log (.registered codec maxPayload) ::
        .rate (.dropping (s.mayDrop codec)) :: s.rack.journal) =
      Decision.told? (.registered codec :: decisions) := by
    intro newer hnewer
    rw [lastTold?_append hnewer, Decision.told?, ← hmay]
    rfl
  have hrate : ∀ b on, ((s.rate.enableDropping (s.mayDrop codec)).configure
      (codec.limits maxPayload)).dropping? = some b →
      Decision.told? (.registered codec :: decisions) = some on → b = on := by
    intro b on hb hon
    rw [RateController.dropping?_configure] at hb
    rw [Decision.told?, ← hmay] at hon
    rw [RateController.dropping?_enableDropping hb, Option.some.inj hon]
  unfold Sender.adopt configureRate
  dsimp only
  split
  · exact ⟨rfl, h.dropping, htold [.log (.limited _), .rate (.configured _)]
      (by simp [Event.told?]), hrate⟩
  · exact ⟨rfl, h.dropping, htold [.rate (.configured _)] (by simp [Event.told?]), hrate⟩

/-- What a stage decides, if anything. -/
def stageDecides? (s : Sender) : EncoderStage → Option Decision
  | .register codec cores maxPayload => (s.accepts? codec cores maxPayload).map .registered
  | .enableDropping on => some (.requested on)
  | _ => none

theorem Follows.runStage (h : s.Follows decisions) (stage : EncoderStage) :
    (s.runStage stage).1.Follows ((s.stageDecides? stage).toList ++ decisions) := by
  cases stage with
  | encode frame info copy => exact (s.encode_course frame info copy).steps.undecided.follows h
  | pullKey stream => exact (s.pullKey_course stream).steps.undecided.follows h
  | pushRates rates => exact (s.pushRates_course rates).steps.undecided.follows h
  | register codec cores maxPayload =>
      rcases s.register_course codec cores maxPayload with
        ⟨hcourse, hfailed⟩ | ⟨t, handle, hcourse, heq⟩
      · have hnone : s.accepts? codec cores maxPayload = none := if_neg hfailed
        simp only [stageDecides?, hnone]
        exact hcourse.steps.undecided.follows h
      · have hsome : s.accepts? codec cores maxPayload = some codec := if_pos (by rw [heq])
        simp only [Sender.runStage, stageDecides?, hsome, heq]
        exact (hcourse.steps.undecided.follows h).adopt codec maxPayload handle
  | attach payloadType internalSource choice =>
      exact (s.attach_course payloadType internalSource choice).steps.undecided.follows h
  | detach payloadType => exact (s.detach_course payloadType).steps.undecided.follows h
  | enableDropping on => exact h.enableDropping on

def progressDecides? (s : Sender) : Progress → Option Decision
  | .waits stage => s.stageDecides? stage
  | .finished _ => none

theorem Follows.finish (h : s.Follows decisions) (progress : Progress) :
    (s.finish progress).1.Follows ((s.progressDecides? progress).toList ++ decisions) := by
  cases progress with
  | waits stage => exact h.runStage stage
  | finished reply => exact h

/-- What an instruction from outside decides, if anything. -/
def followDecides? (s : Sender) : Instruction → Option Decision
  | .act (.call c) => (s.begin c).1.progressDecides? (s.begin c).2
  | _ => none

theorem Follows.follow (h : s.Follows decisions) (i : Instruction) :
    (s.follow i).1.Follows ((s.followDecides? i).toList ++ decisions) := by
  cases i with
  | act a =>
      cases a with
      | call c => exact ((s.begin_steps c).undecided.follows h).finish (s.begin c).2
      | _ => exact (s.actInside_steps _).undecided.follows h
  | _ => exact (s.followInside_steps _).undecided.follows h

/-- What a sender is set up with counts as a request. -/
theorem start_follows (o : SenderOptions) (now : Millis) :
    (start o now).Follows (o.dropping.toList.map .requested) := by
  unfold start
  cases o.dropping with
  | none => exact ⟨rfl, rfl, rfl, by simp [Decision.told?]⟩
  | some on =>
      refine ⟨rfl, rfl, rfl, ?_⟩
      intro b told hb htold
      obtain rfl := Option.some.inj htold
      exact RateController.dropping?_enableDropping hb

end Sender

namespace Traffic

variable {t : Traffic} {decided : List Decision}

/-- What a move decides, if anything. -/
def decision? (t : Traffic) : Move → Option Decision
  | .enter _ => none
  | .proceed n =>
      match t.calls[n]? with
      | some (.reached progress) => t.sender.progressDecides? progress
      | _ => none
  | .follow i => t.sender.followDecides? i

/-- The decisions made in a run, the latest first. -/
def decisions (t : Traffic) : List Move → List Decision
  | [] => []
  | move :: rest => (t.step move).decisions rest ++ (t.decision? move).toList

theorem step_follows (h : t.sender.Follows decided) (move : Move) :
    (t.step move).sender.Follows ((t.decision? move).toList ++ decided) := by
  cases move with
  | enter c =>
      show (t.sender.enter c).1.Follows decided
      rcases enter_cases t.sender c with ⟨report, rfl, heq⟩ | heq
      · rw [heq]
        exact (t.sender.regulate_steps report).undecided.follows h
      · rw [heq]
        exact (t.sender.begin_steps c).undecided.follows h
  | proceed n =>
      cases hleg : t.calls[n]? with
      | none =>
          simp only [step, decision?, hleg]
          exact h
      | some leg =>
          simp only [step, decision?, hleg]
          cases leg with
          | regulated rates =>
              have hsteps : t.sender.Steps (t.sender.keepRates rates).1 := .single (.rated rates)
              exact hsteps.undecided.follows h
          | reached progress => exact h.finish progress
  | follow i => exact h.follow i

theorem run_follows (h : t.sender.Follows decided) (moves : List Move) :
    (t.run moves).sender.Follows (t.decisions moves ++ decided) := by
  induction moves generalizing t decided with
  | nil => exact h
  | cons move rest ih =>
      rw [decisions, List.append_assoc]
      exact ih (step_follows h move)

/-- The decisions on a sender that was set up with `o`, what it was set up with
included. -/
def rulings (o : SenderOptions) (now : Millis) (moves : List Move) : List Decision :=
  decisions { sender := Sender.start o now } moves ++ o.dropping.toList.map .requested

/-- In every run, once a codec has been registered, rate control has been told
whether frames may be dropped, and a regulator goes by what it was told last.
That is what the codec registered last and the last request ask for, unless the
codec forbids dropping and the latest of all decisions is a request to drop. -/
theorem dropping_told_iff (o : SenderOptions) (now : Millis) (moves : List Move) {codec : Codec}
    (hcodec : (accepted { sender := Sender.start o now } moves).head? = some codec) :
    ∃ on, lastTold? (run { sender := Sender.start o now } moves).sender.rack.journal = some on ∧
      (∀ r, (run { sender := Sender.start o now } moves).sender.rate = .regulated r →
        r.bucket.enabled = on) ∧
      (on = Decision.policy codec (Decision.wish? (rulings o now moves)) ↔
        ¬ (codec.forbidsDropping = true ∧
          (rulings o now moves).head? = some (.requested true))) := by
  have hfollows : (run { sender := Sender.start o now } moves).sender.Follows
      (rulings o now moves) :=
    run_follows (t := { sender := Sender.start o now }) (Sender.start_follows o now) moves
  have hregistered : Decision.codec? (rulings o now moves) = some codec := by
    rw [← hfollows.codec, (run_accepted (Sender.start_fresh o now) moves).1, hcodec]
  obtain ⟨on, htold, hiff⟩ := Decision.told_iff hregistered
  refine ⟨on, hfollows.told.trans htold, ?_, hiff⟩
  intro r hrate
  exact hfollows.rate _ on (by rw [hrate]; rfl) htold

/-- A codec for worked runs whose screen content comes in two layers. -/
def layeredScreen : Codec :=
  { resolution := ⟨2, 2⟩, mode := .screenshare, options := .vp8 2 false }

def generous : SenderOptions := { blueprints := fun _ => some {} }

/-- A codec that forbids dropping is registered, and then frames are to be
dropped. -/
def overruled : List Move :=
  [.follow (.act (.call (.register layeredScreen 1 1200))),
    .follow (.act (.call (.enableDropping true)))]

/-- The request overrules the codec. -/
theorem dropping_told_iff_overruled :
    (accepted { sender := Sender.start generous 0 } overruled).head? = some layeredScreen ∧
      ∃ on, lastTold? (run { sender := Sender.start generous 0 } overruled).sender.rack.journal =
          some on ∧
        on ≠ Decision.policy layeredScreen (Decision.wish? (rulings generous 0 overruled)) := by
  have hcodec : (accepted { sender := Sender.start generous 0 } overruled).head? =
      some layeredScreen := by
    decide +kernel
  obtain ⟨on, htold, _, hiff⟩ := dropping_told_iff generous 0 overruled hcodec
  refine ⟨hcodec, on, htold, fun heq => ?_⟩
  have hhead : (rulings generous 0 overruled).head? = some (.requested true) := by decide +kernel
  exact hiff.mp heq ⟨by decide, hhead⟩

/-- Frames of layered screen content may be dropped while its codec is
registered. -/
theorem layered_screen_dropped :
    layeredScreen.forbidsDropping = true ∧
      (accepted { sender := Sender.start generous 0 } overruled).head? = some layeredScreen ∧
      lastTold? (run { sender := Sender.start generous 0 } overruled).sender.rack.journal =
        some true ∧
      (run { sender := Sender.start generous 0 } overruled).sender.rate.dropping? = some true := by
  exact ⟨by decide, by decide +kernel, by decide +kernel, by decide +kernel⟩

end Traffic

end Simulcast
