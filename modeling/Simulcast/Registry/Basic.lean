import Simulcast.Encoder.Rack

/-!
The registry of encoders. It builds encoders from one blueprint per codec
family, or hands out encoders the application attached to a payload type;
attached encoders win. At most one encoder is active. It is kept as long as
registrations ask for the same thing, and released before another one is
initialized.
-/

namespace Simulcast

/-- An encoder in use: its number and the capabilities it was installed with. -/
structure Handle where
  encoder : Nat
  internalSource : Bool
  nativeInput : Bool
  deriving DecidableEq, Repr

structure Attachment where
  encoder : Nat
  internalSource : Bool
  deriving DecidableEq, Repr

/-- The active encoder, and the payload type it was attached to if it was. -/
structure ActiveEncoder where
  handle : Handle
  attachedTo : Option UInt8
  deriving DecidableEq, Repr

structure Registry where
  blueprints : CodecKind → Option Blueprint := fun _ => none
  attachments : UInt8 → Option Attachment := fun _ => none
  sendCodec : Option Codec := none
  cores : UInt32 := 0
  maxPayload : Nat := 0
  active : Option ActiveEncoder := none
  /-- The attachment of the active payload type changed since the active
  encoder was installed. -/
  stale : Bool := false

namespace Registry

def encoder? (g : Registry) : Option Handle := g.active.map (·.handle)

def setBlueprint (g : Registry) (kind : CodecKind) (b : Blueprint) : Registry :=
  { g with blueprints := fun k => if k = kind then some b else g.blueprints k }

def accepts (g : Registry) (resolution : Resolution) : Bool :=
  match g.sendCodec with
  | some codec => codec.resolution == resolution
  | none => false

def serves (g : Registry) (payloadType : UInt8) : Bool :=
  match g.sendCodec with
  | some codec => codec.payloadType == payloadType
  | none => false

/-- Whether a registration asks for something else than the last one. -/
def needsReset (g : Registry) (codec : Codec) (cores : UInt32) (maxPayload : Nat) : Bool :=
  g.stale || g.sendCodec != some codec || g.cores != cores || g.maxPayload != maxPayload

/-- Releases the active encoder. That the release fails is only logged. -/
def releaseActive (g : Registry) (rack : Rack) : Registry × Rack :=
  match g.active with
  | none => ({ g with stale := false }, rack)
  | some active =>
      let (rack, result) := rack.call active.handle.encoder .release
      let rack :=
        match result with
        | .ok _ => rack
        | .error fault => rack.log (.releaseFailed fault)
      ({ g with active := none, stale := false }, rack)

/-- An encoder to install: its number, the payload type it is attached to, and
whether it was declared to have an internal source. -/
structure Candidate where
  encoder : Nat
  attachedTo : Option UInt8
  internalSource : Option Bool
  deriving DecidableEq, Repr

/-- The encoder to serve a codec: the one attached to its payload type, else a
new one of its family. -/
def candidate (g : Registry) (rack : Rack) (codec : Codec) : Option (Rack × Candidate) :=
  match g.attachments codec.payloadType with
  | some attached =>
      some (rack, ⟨attached.encoder, some codec.payloadType, some attached.internalSource⟩)
  | none =>
      match g.blueprints codec.kind with
      | some blueprint =>
          let (rack, n) := rack.build blueprint
          some (rack, ⟨n, none, none⟩)
      | none => none

/-- Initializes a candidate and makes it the active encoder. -/
def install (g : Registry) (rack : Rack) (new : Candidate) (codec : Codec) (cores : UInt32)
    (maxPayload : Nat) : Registry × Rack × Except RegistryError Handle :=
  let (rack, _) := rack.call new.encoder .connect
  let (rack, result) := rack.call new.encoder (.init codec cores maxPayload)
  let encoder := rack.encoder new.encoder
  match result with
  | .error fault =>
      (g, rack.log (.initFailed encoder.name codec.name fault), .error (.initFailed fault))
  | .ok _ =>
      let handle : Handle :=
        ⟨new.encoder, new.internalSource.getD encoder.internalSource, encoder.nativeInput⟩
      ({ g with
          active := some ⟨handle, new.attachedTo⟩
          sendCodec := some codec
          cores := cores
          maxPayload := maxPayload }, rack, .ok handle)

/-- Releases what is active and installs an encoder for `codec`. -/
def replace (g : Registry) (rack : Rack) (codec : Codec) (cores : UInt32) (maxPayload : Nat) :
    Registry × Rack × Except RegistryError Handle :=
  let (g, rack) := g.releaseActive rack
  let g := { g with sendCodec := none }
  match g.candidate rack codec with
  | none => (g, rack, .error (.noEncoder codec.kind codec.payloadType))
  | some (rack, new) => g.install rack new codec cores maxPayload

/-- Makes `codec` the send codec and gives the encoder that serves it. The
encoder already active is kept if nothing changed. On failure there may be no
active encoder any more. -/
def register (g : Registry) (rack : Rack) (codec : Codec) (cores : UInt32) (maxPayload : Nat) :
    Registry × Rack × Except RegistryError Handle :=
  match codec.fault? with
  | some fault => (g, rack, .error (.invalidCodec fault))
  | none =>
      match g.active with
      | some active =>
          if g.needsReset codec.clamped cores maxPayload then
            g.replace rack codec.clamped cores maxPayload
          else (g, rack.log .encoderKept, .ok active.handle)
      | none => g.replace rack codec.clamped cores maxPayload

/-- Makes encoder `n` serve a payload type in place of any before it. -/
def attach (g : Registry) (payloadType : UInt8) (internalSource : Bool) (n : Nat) : Registry :=
  { g with
    stale := g.stale || g.serves payloadType
    attachments := fun p =>
      if p = payloadType then some ⟨n, internalSource⟩ else g.attachments p }

def forget (g : Registry) (payloadType : UInt8) : Registry :=
  { g with
    attachments := fun p => if p = payloadType then none else g.attachments p }

/-- Whether the active encoder was installed as the one attached to a payload
type. -/
def servedFrom (g : Registry) (payloadType : UInt8) : Bool :=
  match g.active with
  | some active => active.attachedTo == some payloadType
  | none => false

/-- Removes the encoder attached to a payload type. The answer says whether it
was active, in which case it is released and no encoder is left. -/
def detach (g : Registry) (rack : Rack) (payloadType : UInt8) :
    Registry × Rack × Except RegistryError Bool :=
  match g.attachments payloadType with
  | none => (g, rack, .error (.unknownPayloadType payloadType))
  | some _ =>
      let g := g.forget payloadType
      if g.servedFrom payloadType then
        let (g, rack) := g.releaseActive rack
        ({ g with sendCodec := none }, rack, .ok true)
      else (g, rack, .ok false)

end Registry

end Simulcast
