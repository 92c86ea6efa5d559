import Mathlib.Logic.Relation
import Simulcast.Proofs.Registry.Outcome
import Simulcast.Sender.Traffic

/-!
Calls, callbacks and instructions as sequences of small steps. Whatever a
sender does, short of registering a codec and of being told whether frames may
be dropped, comes down to a dozen kinds of step, each of which touches one
thing. What every small step leaves alone is left alone by all of it. Here is
what goes on beside the encoder; `Courses` has what happens while a call has it.
-/

namespace Simulcast

/-- An entry that is neither an answer of rate control nor a registration. -/
def Event.Plain : Event → Prop
  | .rate _ | .log (.registered _ _) => False
  | _ => True

/-- Rate control is asked `c` at time `now` and goes from `r` to another state.
It is told neither of a codec nor whether frames may be dropped. -/
inductive RateController.Asked (r : RateController) (now : Millis) :
    RateCall → RateController → Prop where
  | fed (bitrate : UInt32) (lossRate : UInt8) (roundTrip : Millis) :
      r.Asked now (.fed bitrate lossRate roundTrip (r.feed bitrate lossRate roundTrip).2)
        (r.feed bitrate lossRate roundTrip).1
  | frameRate : r.Asked now (.frameRate (r.frameRate now).2) (r.frameRate now).1
  | drop : r.Asked now (.drop (r.dropFrame now).2) (r.dropFrame now).1
  | accounted (image : EncodedImage) : r.Asked now (.accounted image) (r.account now image)
  | sentBitrate : r.Asked now (.sentBitrate (r.sentBitrate now).2) (r.sentBitrate now).1
  | sentFrameRate : r.Asked now (.sentFrameRate (r.sentFrameRate now).2) (r.sentFrameRate now).1

namespace Sender

inductive SmallStep (s : Sender) : Sender → Prop where
  | noted (e : Event) (plain : e.Plain) : SmallStep s (s.note e)
  | asked {c : RateCall} {rate : RateController} (asked : s.rate.Asked s.now c rate) :
      SmallStep s ({ s with rate := rate }.note (.rate c))
  | scheduled (schedule : Schedule) : SmallStep s (s.storeSchedule schedule)
  | rated (rates : RateParameters) : SmallStep s (s.storeRates rates)
  /-- The slot is filled or emptied other than by a registration. -/
  | seated (slot : Option Handle) (internalSource : Bool) :
      SmallStep s ({ s with slot := slot }.storeSource internalSource)
  | restarted : SmallStep s { s with timer := s.timer.restart s.now }
  | advanced (delay : Millis) : SmallStep s (s.advance delay)
  | scripted (patch : RateScript.Patch) : SmallStep s { s with rate := s.rate.patch patch }
  | refusing (refusal : Option Refusal) : SmallStep s { s with refusal := refusal }
  | instructed (callbacks : Callbacks) : SmallStep s { s with callbacks := callbacks }
  | performed (encoders : Array Encoder) :
      SmallStep s { s with rack := { s.rack with encoders := encoders } }
  | supplied (registry : Registry) {rack : Rack} {new : List Event}
      (journal : rack.journal = new ++ s.rack.journal) (entries : ∀ e ∈ new, e.ByRegistry) :
      SmallStep s { s with registry := registry, rack := rack }

/-- From one sender to another by small steps. -/
abbrev Steps : Sender → Sender → Prop := Relation.ReflTransGen SmallStep

theorem report_steps (s : Sender) : s.Steps s.report.1 := by
  unfold report
  split
  · exact (((Relation.ReflTransGen.refl.tail (.asked .sentBitrate)).tail
      (.asked .sentFrameRate)).tail (.noted (.statistics _ _) trivial))
  · exact .refl

theorem tick_steps (s : Sender) : s.Steps s.tick.1 := by
  have hreport : s.Steps (if s.untilDue = 0 then
      { s with timer := s.timer.restart s.now }.report else (s, none)).1 := by
    split
    · exact .head .restarted (report_steps _)
    · exact .refl
  exact (hreport.tail (.asked .frameRate)).tail (.rated _)

theorem markKey_steps (s : Sender) (stream : Nat) : s.Steps (s.markKey stream).1 := by
  unfold markKey
  split
  · exact .refl
  · exact .single (.scheduled _)

theorem regulate_steps (s : Sender) (report : Feedback) : s.Steps (s.regulate report).1 :=
  (Relation.ReflTransGen.single (.asked (.fed _ _ _))).tail (.asked .frameRate)

theorem begin_steps (s : Sender) (c : Call) : s.Steps (s.begin c).1 := by
  cases c with
  | requestKey stream => exact s.markKey_steps stream
  | feedback report => exact (s.regulate_steps report).tail (.rated _)
  | _ => exact .refl

theorem actInside_steps (s : Sender) (a : Action) : s.Steps (s.actInside a).1 := by
  cases a with
  | call c =>
      have hbegun := s.begin_steps c
      simp only [actInside]
      split <;> rename_i heq <;> rw [heq] at hbegun <;> exact hbegun
  | tick => exact s.tick_steps
  | setFaults n patch =>
      simp only [actInside]
      split
      · exact .single (.performed _)
      · exact .refl
  | advance delay => exact .single (.advanced delay)
  | setScript patch => exact .single (.scripted patch)
  | refuse refusal => exact .single (.refusing _)
  | _ => exact .refl

theorem followInside_steps (s : Sender) (i : Instruction) : s.Steps (s.followInside i).1 := by
  cases i with
  | act a => exact s.actInside_steps a
  | onEncode n instructions =>
      simp only [followInside, setOnEncode]
      split
      · exact .single (.instructed _)
      · exact .refl
  | onImage instructions => exact .single (.instructed _)

end Sender

end Simulcast
