import Simulcast.Sender.Stage

/-!
What a sender does with the active encoder: encode a frame, ask for a key
frame, hand over rates. Images come back while the encoder's call is under
way. Each is accounted for first and handed to the application next, before
the one after it.
-/

namespace Simulcast

namespace Sender

def deliver (s : Sender) (image : EncodedImage) : Sender :=
  let s := (s.account image).note (.image image)
  s.runCallback s.callbacks.onImage

/-- Has encoder `n` answer a call it was given, and takes the images. -/
def produce (s : Sender) (n : Nat) (c : EncoderCall) : Sender × Except EncoderFault Unit :=
  let (rack, result) := s.rack.perform n c
  let s := { s with rack := rack }
  match result with
  | .ok images => ((images.foldl deliver s).note (.answered n c none), .ok ())
  | .error fault => (s.note (.answered n c (some fault)), .error fault)

/-- Runs the application's callback for encode calls of encoder `n`. Its
instructions are taken out meanwhile and put back at the end, so what they set
for the encode calls of the same encoder does not last. -/
def interrupt (s : Sender) (n : Nat) : Sender :=
  match s.callbacks.onEncode n with
  | [] => s
  | instructions => (s.runCallback instructions).storeOnEncode n instructions

/-- Calls encoder `n` to encode a frame. The application's callback runs in
the middle of the call, before anything comes of it. -/
def callEncode (s : Sender) (n : Nat) (frame : Frame) (kinds : List FrameKind)
    (info : Option SideInfo) : Sender × Except EncoderFault Unit :=
  let s := s.note (.called n (.encode frame kinds info))
  (s.interrupt n).produce n (.encode frame kinds info)

def callRequest (s : Sender) (n : Nat) (kinds : List FrameKind) :
    Sender × Except EncoderFault Unit :=
  (s.note (.called n (.request kinds))).produce n (.request kinds)

/-- The plan to encode by. A registration may have come after the copy was
taken, and then the copy is for another codec. -/
def currentPlan (s : Sender) (copy : Plan) : Plan :=
  if s.plan.schedule.generation = copy.schedule.generation then copy else s.plan

def readable (slot : Handle) (frame : Frame) : Except CopyFault Frame :=
  if frame.picture.isNative ∧ ¬ slot.nativeInput then frame.toPlanar else .ok frame

/-- Hands rates over before a frame. That the encoder does not take them is
only logged. -/
def offerRates (s : Sender) (n : Nat) (plan : Plan) : Sender :=
  match s.applyRates n plan.rates plan.internalSource with
  | (s, .ok _) => s
  | (s, .error fault) => s.log (.ratesRejected fault)

/-- Encodes a readable frame. Once that succeeds, the kinds it carried are
settled in the schedule. -/
def encodeReadable (s : Sender) (n : Nat) (frame : Frame) (info : Option SideInfo)
    (plan : Plan) : Sender × Except SendError Delivery :=
  match s.callEncode n frame plan.schedule.kinds info with
  | (s, .error fault) => (s.log (.encodeFailed fault.code), .error (.encoder fault))
  | (s, .ok _) =>
      (s.storeSchedule (s.plan.schedule.clearSatisfied plan.schedule),
        .ok (.encoded plan.schedule.kinds))

/-- Takes a frame to the encoder in `slot`, unless it is held back, dropped or
turned down. The rate controller is asked about every frame, also about those
that cannot be sent. -/
def encodeOn (s : Sender) (slot : Handle) (frame : Frame) (info : Option SideInfo)
    (plan : Plan) : Sender × Except SendError Delivery :=
  let (s, drop) := (s.offerRates slot.encoder plan).askDrop
  if ¬ plan.internalSource ∧ plan.rates.targetBitrate = 0 then
    ((s.log (.gated frame.timestamp)).skipFrame slot.encoder, .ok .gated)
  else if drop then
    ((s.log (.dropped plan.rates)).skipFrame slot.encoder, .ok .dropped)
  else if ¬ s.registry.accepts frame.resolution then
    (s.log .wrongResolution,
      .error (.wrongResolution (s.codec.map (·.resolution)) frame.resolution))
  else
    match readable slot frame with
    | .error fault => (s.log (.notReadable fault.reasons), .error (.notReadable fault))
    | .ok frame => s.encodeReadable slot.encoder frame info plan

/-- The second part of a submission, working on a copy of the plan. -/
def encode (s : Sender) (frame : Frame) (info : Option SideInfo) (copy : Plan) :
    Sender × Except SendError Delivery :=
  match s.slot with
  | none => (s, .error .uninitialized)
  | some slot => s.encodeOn slot frame info (s.currentPlan copy)

/-- Settles a key frame request that the encoder took, unless a registration
has started the schedule over. -/
def settleKey (s : Sender) (stream : Nat) (asked : Schedule) : Sender × Reply :=
  if s.plan.schedule.generation = asked.generation then
    match s.plan.schedule.set stream .delta with
    | .ok schedule => (s.storeSchedule schedule, .done)
    | .error e => (s, .failed (.stream e))
  else (s, .done)

/-- The second part of a key frame request. An internal source is asked for a
frame right away; a request it turns down stays pending. -/
def pullKey (s : Sender) (stream : Nat) : Sender × Reply :=
  match s.plan.schedule.missing? stream with
  | some e => (s, .failed (.stream e))
  | none =>
      match s.slot with
      | none => (s, .done)
      | some slot =>
          if slot.internalSource then
            let asked := s.plan.schedule
            match s.callRequest slot.encoder asked.kinds with
            | (s, .error fault) => (s.log (.keyRequestFailed stream fault), .done)
            | (s, .ok _) => s.settleKey stream asked
          else (s, .done)

/-- The second part of network feedback. -/
def pushRates (s : Sender) (rates : RateParameters) : Sender × Reply :=
  match s.slot with
  | none => (s, .done)
  | some slot =>
      match s.applyRates slot.encoder rates true with
      | (s, .ok _) => (s, .done)
      | (s, .error fault) => (s, .failed (.encoder fault))

def appliedRates (s : Sender) : Except SendError RateParameters :=
  match s.slot with
  | none => .error .uninitialized
  | some slot => .ok (s.rack.encoder slot.encoder).rates

end Sender

end Simulcast
