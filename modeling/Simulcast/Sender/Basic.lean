import Simulcast.Registry.Basic

/-!
The state of a sender and the small steps its calls are made of. Each step
touches one thing: the rate controller, the plan for the next encode call, or
the active encoder. Whatever a step asks of a collaborator goes into the
journal together with the answer.
-/

namespace Simulcast

/-- What the next encode call should carry: rates, the frame kind wanted per
stream, and whether the active encoder has an internal source. A submission
works on a copy taken before it waits for the encoder. -/
structure Plan where
  rates : RateParameters := {}
  schedule : Schedule := {}
  internalSource : Bool := false
  deriving DecidableEq, Repr

/-- What the application does from inside callbacks: in the middle of every
encode call of a numbered encoder, and for every image handed to it. -/
structure Callbacks where
  onEncode : Nat → List Instruction := fun _ => []
  onImage : List Instruction := []

/-- A sender with everything around it. -/
structure Sender where
  now : Millis := 0
  timer : PeriodicTimer := ⟨1000, 0⟩
  /-- Whether there is somewhere to report statistics to. -/
  reportsStatistics : Bool := false
  rate : RateController := .regulated {}
  registry : Registry := {}
  /-- How the next registration that reaches the registry is turned down. -/
  refusal : Option Refusal := none
  /-- The active encoder as the sender knows it. -/
  slot : Option Handle := none
  codec : Option Codec := none
  /-- The last explicit wish about dropping frames. -/
  dropping : Option Bool := none
  plan : Plan := {}
  callbacks : Callbacks := {}
  rack : Rack := {}

structure SenderOptions where
  interval : Millis := 1000
  /-- Whether frames may be dropped; unless said, rate control decides. -/
  dropping : Option Bool := none
  reportsStatistics : Bool := false
  rate : RateController := .regulated {}
  blueprints : CodecKind → Option Blueprint := fun _ => none

namespace Sender

def note (s : Sender) (e : Event) : Sender := { s with rack := s.rack.note e }

def log (s : Sender) (n : Notice) : Sender := { s with rack := s.rack.log n }

def tellDropping (s : Sender) (on : Bool) : Sender :=
  { s with rate := s.rate.enableDropping on }.note (.rate (.dropping on))

/-- A sender without an encoder, set up at time `now`. -/
def start (o : SenderOptions) (now : Millis) : Sender :=
  let s : Sender :=
    { now := now
      timer := ⟨o.interval, now⟩
      reportsStatistics := o.reportsStatistics
      rate := o.rate
      registry := { blueprints := o.blueprints }
      dropping := o.dropping }
  match o.dropping with
  | some on => s.tellDropping on
  | none => s

def feedRate (s : Sender) (f : Feedback) : Sender × UInt32 :=
  let (rate, target) := s.rate.feed f.bitrate f.lossRate f.roundTrip
  ({ s with rate := rate }.note (.rate (.fed f.bitrate f.lossRate f.roundTrip target)), target)

def askFrameRate (s : Sender) : Sender × UInt32 :=
  let (rate, answer) := s.rate.frameRate s.now
  ({ s with rate := rate }.note (.rate (.frameRate answer)), answer)

def askDrop (s : Sender) : Sender × Bool :=
  let (rate, answer) := s.rate.dropFrame s.now
  ({ s with rate := rate }.note (.rate (.drop answer)), answer)

def askSentBitrate (s : Sender) : Sender × UInt32 :=
  let (rate, answer) := s.rate.sentBitrate s.now
  ({ s with rate := rate }.note (.rate (.sentBitrate answer)), answer)

def askSentFrameRate (s : Sender) : Sender × UInt32 :=
  let (rate, answer) := s.rate.sentFrameRate s.now
  ({ s with rate := rate }.note (.rate (.sentFrameRate answer)), answer)

def account (s : Sender) (image : EncodedImage) : Sender :=
  { s with rate := s.rate.account s.now image }.note (.rate (.accounted image))

/-- Tells the rate controller of a newly registered codec. A regulator logs
the limits it is given. -/
def configureRate (s : Sender) (limits : EncodingLimits) : Sender :=
  let s := { s with rate := s.rate.configure limits }.note (.rate (.configured limits))
  match s.rate with
  | .regulated _ => s.log (.limited limits)
  | .scripted _ => s

def storeRates (s : Sender) (rates : RateParameters) : Sender :=
  { s with plan := { s.plan with rates := rates } }

/-- Keeps an estimate of the frame rate and leaves the other rates alone. -/
def storeFrameRate (s : Sender) (frameRate : UInt32) : Sender :=
  s.storeRates { s.plan.rates with frameRate := frameRate }

def storeSchedule (s : Sender) (schedule : Schedule) : Sender :=
  { s with plan := { s.plan with schedule := schedule } }

def storeSource (s : Sender) (internalSource : Bool) : Sender :=
  { s with plan := { s.plan with internalSource := internalSource } }

/-- Calls an encoder that delivers nothing in return. -/
def callEncoder (s : Sender) (n : Nat) (c : EncoderCall) : Sender × Except EncoderFault Unit :=
  let (rack, result) := s.rack.call n c
  ({ s with rack := rack }, result.map fun _ => ())

/-- The rates as an encoder gets to see them: while there is no estimate of
the frame rate, the codec's maximum stands in for it. -/
def seenRates (s : Sender) (rates : RateParameters) : RateParameters :=
  if rates.frameRate = 0 then
    { rates with frameRate := (s.codec.map (·.maxFrameRate)).getD 0 }
  else rates

/-- Hands rates to an encoder. A frame driven encoder never gets to see a zero
target: it means that nothing can be sent, and frames are held back instead. -/
def applyRates (s : Sender) (n : Nat) (rates : RateParameters) (internalSource : Bool) :
    Sender × Except EncoderFault Unit :=
  if ¬ internalSource ∧ rates.targetBitrate = 0 then (s, .ok ())
  else s.callEncoder n (.configure (s.seenRates rates))

def skipFrame (s : Sender) (n : Nat) : Sender := (s.callEncoder n .skip).1

def storeOnEncode (s : Sender) (n : Nat) (instructions : List Instruction) : Sender :=
  let onEncode := fun m => if m = n then instructions else s.callbacks.onEncode m
  { s with callbacks := { s.callbacks with onEncode := onEncode } }

/-- Sets what is done in the middle of every encode call of encoder `n`. -/
def setOnEncode (s : Sender) (n : Nat) (instructions : List Instruction) : Sender × Reply :=
  if s.rack.keepsRecord n then (s.storeOnEncode n instructions, .done) else (s, .absent)

def setOnImage (s : Sender) (instructions : List Instruction) : Sender :=
  { s with callbacks := { s.callbacks with onImage := instructions } }

def untilDue (s : Sender) : Millis := s.timer.remaining s.now

def report (s : Sender) : Sender × Option (UInt32 × UInt32) :=
  if s.reportsStatistics then
    let (s, bitrate) := s.askSentBitrate
    let (s, frameRate) := s.askSentFrameRate
    (s.note (.statistics bitrate frameRate), some (bitrate, frameRate))
  else (s, none)

/-- Periodic upkeep: reports statistics once per interval and refreshes the
estimate of the frame rate. -/
def tick (s : Sender) : Sender × TickResult :=
  let (s, report) :=
    if s.untilDue = 0 then { s with timer := s.timer.restart s.now }.report else (s, none)
  let (s, frameRate) := s.askFrameRate
  let s := s.storeFrameRate frameRate
  (s, ⟨s.untilDue, report⟩)

def advance (s : Sender) (delay : Millis) : Sender :=
  { s with now := Millis.after s.now delay }

end Sender

end Simulcast
