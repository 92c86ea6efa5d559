import Simulcast.Sender.Registration

/-!
Whole calls on a sender, and everything else that can be done to one from
outside: the operations a run is made of.
-/

namespace Simulcast

def Reply.ofSubmission : Except SendError Delivery → Reply
  | .ok delivery => .submitted delivery
  | .error e => .failed e

namespace Sender

/-- The part of a call that has the encoder. -/
def runStage (s : Sender) : EncoderStage → Sender × Reply
  | .encode frame info copy =>
      let (s, result) := s.encode frame info copy
      (s, Reply.ofSubmission result)
  | .pullKey stream => s.pullKey stream
  | .pushRates rates => s.pushRates rates
  | .register codec cores maxPayload => s.register codec cores maxPayload
  | .attach payloadType internalSource choice => s.attach payloadType internalSource choice
  | .detach payloadType => s.detach payloadType
  | .enableDropping on => (s.enableDropping on, .done)

/-- The rest of a call. -/
def finish (s : Sender) : Progress → Sender × Reply
  | .finished reply => (s, reply)
  | .waits stage => s.runStage stage

/-- A call from beginning to end, with nothing in between. -/
def call (s : Sender) (c : Call) : Sender × Reply :=
  let (s, progress) := s.begin c
  s.finish progress

/-- An action from outside, where every call comes to its end. -/
def act (s : Sender) : Action → Sender × Reply
  | .call c => s.call c
  | action => s.actInside action

def follow (s : Sender) : Instruction → Sender × Reply
  | .act a => s.act a
  | instruction => s.followInside instruction

/-- A run: the actions, one after the other. -/
def run (s : Sender) (actions : List Action) : Sender :=
  actions.foldl (fun s a => (s.act a).1) s

def submit (s : Sender) (frame : Frame) (info : Option SideInfo) :
    Sender × Except SendError Delivery :=
  s.encode frame info s.plan

/-- Two calls at once. `second` has the encoder when `first` begins, so `first`
gets as far as it can without it and goes on when `second` is through. -/
def race (s : Sender) (first second : Call) : Sender × Reply × Reply :=
  let (s, progress) := s.begin first
  let (s, secondReply) := s.call second
  let (s, firstReply) := s.finish progress
  (s, firstReply, secondReply)

/-- A series of submissions of one frame at regular times. -/
structure Burst where
  frames : Nat
  frame : Frame
  info : Option SideInfo := none
  timestamp : UInt32 := 0
  step : UInt32 := 3000
  interval : Millis := 33
  ticks : Bool := false

structure BurstEntry where
  result : Except SendError Delivery
  /-- The estimate of the frame rate in the plan afterwards. -/
  frameRate : UInt32
  report : Option (UInt32 × UInt32)

/-- Frame number `k` of a burst: submit it, let the interval pass, and tick if
the burst does. -/
def burstStep (s : Sender) (b : Burst) (k : Nat) : Sender × BurstEntry :=
  let frame := { b.frame with timestamp := b.timestamp + UInt32.ofNat k * b.step }
  let (s, result) := s.submit frame b.info
  let s := s.advance b.interval
  let (s, report) :=
    if b.ticks then
      let (s, tick) := s.tick
      (s, tick.report)
    else (s, none)
  (s, ⟨result, s.plan.rates.frameRate, report⟩)

def burst (s : Sender) (b : Burst) : Sender × List BurstEntry :=
  let (s, entries) := (List.range b.frames).foldl (fun (s, entries) k =>
    let (s, entry) := s.burstStep b k
    (s, entry :: entries)) (s, [])
  (s, entries.reverse)

/-- Takes the journal, oldest entry first, and leaves it empty. -/
def takeJournal (s : Sender) : Sender × List Event :=
  ({ s with rack := { s.rack with journal := [] } }, s.rack.journal.reverse)

end Sender

end Simulcast
