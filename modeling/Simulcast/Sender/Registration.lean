import Simulcast.Sender.Encoding

/-!
Changes of the send codec and of the encoders that serve it. They have the
encoder to themselves, so no encode call runs at the same time, but copies of
the plan taken earlier may still be on their way.
-/

namespace Simulcast

namespace Sender

/-- Asks the registry for an encoder, or turns the registration down as was
arranged. -/
def askRegistry (s : Sender) (codec : Codec) (cores : UInt32) (maxPayload : Nat) :
    Sender × Except RegistryError Handle :=
  match s.refusal with
  | some refusal => ({ s with refusal := none }, .error (refusal.error codec))
  | none =>
      let (registry, rack, result) := s.registry.register s.rack codec cores maxPayload
      ({ s with registry := registry, rack := rack }, result)

/-- After a failed registration the sender holds what the registry still
holds, which may be nothing. -/
def keepRegistered (s : Sender) : Sender :=
  let slot := s.registry.encoder?
  { s with slot := slot }.storeSource ((slot.map Handle.internalSource).getD false)

/-- Whether frames may be dropped while `codec` is registered: yes, unless
somebody said no or the codec forbids it. -/
def mayDrop (s : Sender) (codec : Codec) : Bool :=
  !codec.forbidsDropping && s.dropping.getD true

/-- Installs an encoder for a registered codec, and requests a key frame on
every stream. -/
def adopt (s : Sender) (codec : Codec) (maxPayload : Nat) (handle : Handle) : Sender :=
  let s := { s with slot := some handle, codec := some codec }
  let s := s.tellDropping (s.mayDrop codec)
  let s := s.storeSchedule (s.plan.schedule.reset codec.streamCount)
  let s := s.storeSource handle.internalSource
  let s := s.log (.registered codec maxPayload)
  s.configureRate (codec.limits maxPayload)

def register (s : Sender) (codec : Codec) (cores : UInt32) (maxPayload : Nat) :
    Sender × Reply :=
  match codec.fault? with
  | some fault => (s, .failed (.invalidCodec fault))
  | none =>
      match s.askRegistry codec cores maxPayload with
      | (s, .ok handle) => (s.adopt codec maxPayload handle, .done)
      | (s, .error e) =>
          ((s.log (.registrationFailed codec e)).keepRegistered, .failed (SendError.ofRegistry e))

/-- Makes the chosen encoder serve a payload type from its next registration
on. -/
def attach (s : Sender) (payloadType : UInt8) (internalSource : Bool)
    (choice : EncoderChoice) : Sender × Reply :=
  match s.rack.choose choice with
  | none => (s, .absent)
  | some (rack, n) =>
      ({ s with
          rack := rack
          registry := s.registry.attach payloadType internalSource n }, .done)

/-- Removes the encoder attached to a payload type. If it was active, there is
no encoder until the next registration. -/
def detach (s : Sender) (payloadType : UInt8) : Sender × Reply :=
  let (registry, rack, result) := s.registry.detach s.rack payloadType
  let s := { s with registry := registry, rack := rack }
  match result with
  | .error e => (s, .failed (SendError.ofRegistry e))
  | .ok true => ({ s with slot := none }.storeSource false, .done)
  | .ok false => (s, .done)

/-- Says whether frames may be dropped. The wish is kept for later
registrations. -/
def enableDropping (s : Sender) (on : Bool) : Sender :=
  { s with dropping := some on }.tellDropping on

end Sender

end Simulcast
