import Simulcast.Sender.Basic

/-!
Calls as stages. The first part of a call touches the plan and the rate
controller, each for a moment only, and never while waiting for the encoder.
The second part, if there is one, has the encoder to itself; it is a value of
`EncoderStage`, so a call that waits can be kept while others go on.

The first part is all that can be done of a call from inside a callback, since
the call that made the callback has the encoder.
-/

namespace Simulcast

/-- What a call does once it has the encoder. -/
inductive EncoderStage where
  /-- Encodes a frame according to a copy of the plan. -/
  | encode (frame : Frame) (info : Option SideInfo) (copy : Plan)
  /-- Asks an internal source for a key frame. -/
  | pullKey (stream : Nat)
  /-- Hands rates to an internal source. -/
  | pushRates (rates : RateParameters)
  | register (codec : Codec) (cores : UInt32) (maxPayload : Nat)
  | attach (payloadType : UInt8) (internalSource : Bool) (encoder : EncoderChoice)
  | detach (payloadType : UInt8)
  | enableDropping (on : Bool)
  deriving DecidableEq, Repr

/-- How far a call has come. -/
inductive Progress where
  | waits (stage : EncoderStage)
  | finished (reply : Reply)
  deriving DecidableEq, Repr

namespace Sender

/-- Marks a stream as needing a key frame. A frame driven encoder gets the
request with the next frame, so that is all there is to do for it. -/
def markKey (s : Sender) (stream : Nat) : Sender × Progress :=
  match s.plan.schedule.requestKey stream with
  | .error e => (s, .finished (.failed (.stream e)))
  | .ok schedule =>
      (s.storeSchedule schedule,
        if s.plan.internalSource then .waits (.pullKey stream) else .finished .done)

/-- Feeds the rate controller and asks it for the frame rate. -/
def regulate (s : Sender) (report : Feedback) : Sender × RateParameters :=
  let (s, target) := s.feedRate report
  let (s, frameRate) := s.askFrameRate
  (s, ⟨target, report.lossRate, report.roundTrip, frameRate⟩)

/-- Puts new rates into the plan. An internal source never sees a frame, so it
has to be told of them. -/
def keepRates (s : Sender) (rates : RateParameters) : Sender × Progress :=
  (s.storeRates rates,
    if s.plan.internalSource then .waits (.pushRates rates) else .finished .done)

/-- A call up to where it needs the encoder, or to its end. -/
def begin (s : Sender) : Call → Sender × Progress
  | .submit frame info => (s, .waits (.encode frame info s.plan))
  | .requestKey stream => s.markKey stream
  | .feedback report =>
      let (s, rates) := s.regulate report
      s.keepRates rates
  | .register codec cores maxPayload => (s, .waits (.register codec cores maxPayload))
  | .attach payloadType internalSource encoder =>
      (s, .waits (.attach payloadType internalSource encoder))
  | .detach payloadType => (s, .waits (.detach payloadType))
  | .enableDropping on => (s, .waits (.enableDropping on))

/-- An action from inside a callback. A call that needs the encoder gets as far
as it can and then waits for ever. -/
def actInside (s : Sender) : Action → Sender × Reply
  | .call c =>
      match s.begin c with
      | (s, .finished reply) => (s, reply)
      | (s, .waits _) => (s, .blocked)
  | .tick =>
      let (s, result) := s.tick
      (s, .ticked result)
  | .untilDue => (s, .time s.untilDue)
  | .schedule => (s, .kinds s.plan.schedule.kinds)
  | .parameters => (s, .rates s.plan.rates)
  | .sendCodec => (s, .codec s.codec)
  | .advance delay => (s.advance delay, .done)
  | .setFaults n patch =>
      if s.rack.keepsRecord n then ({ s with rack := s.rack.setFaults n patch }, .done)
      else (s, .absent)
  | .setScript patch => ({ s with rate := s.rate.patch patch }, .done)
  | .refuse refusal => ({ s with refusal := some refusal }, .done)

def followInside (s : Sender) : Instruction → Sender × Reply
  | .act a => s.actInside a
  | .onEncode n instructions => s.setOnEncode n instructions
  | .onImage instructions => (s.setOnImage instructions, .done)

/-- Follows the instructions of a callback to the last one, in order, also if
one of them sets others for the same callback. -/
def runCallback (s : Sender) (instructions : List Instruction) : Sender :=
  instructions.foldl (fun s i =>
    let (s, reply) := s.followInside i
    s.note (.nested i reply)) s

end Sender

end Simulcast
