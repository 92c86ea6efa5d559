import Simulcast.Registry.Output

/-!
Whole calls on a registry without a sender. A `Station` is a registry together
with the encoders it calls, and a run of it is a list of calls. Encoders may be
made to fail from any moment on, so a run covers every pattern of failures.
-/

namespace Simulcast

structure Station where
  registry : Registry := {}
  rack : Rack := {}

inductive RegistryCall where
  | setBlueprint (kind : CodecKind) (blueprint : Blueprint)
  | register (codec : Codec) (cores : UInt32) (maxPayload : Nat)
  /-- Makes an encoder serve a payload type from its next registration on. -/
  | attach (payloadType : UInt8) (internalSource : Bool) (encoder : EncoderChoice)
  | detach (payloadType : UInt8)
  | encode (frame : Frame) (kinds : List FrameKind)
  | setFaults (encoder : Nat) (patch : FaultPlan.Patch)
  deriving DecidableEq, Repr

namespace Station

/-- A new registry. Any encoders may have been built already. -/
def start (encoders : Array Encoder) : Station := { rack := { encoders := encoders } }

def step (t : Station) : RegistryCall → Station
  | .setBlueprint kind blueprint =>
      { t with registry := t.registry.setBlueprint kind blueprint }
  | .register codec cores maxPayload =>
      let (registry, rack, _) := t.registry.register t.rack codec cores maxPayload
      ⟨registry, rack⟩
  | .attach payloadType internalSource choice =>
      match t.rack.choose choice with
      | some (rack, n) => ⟨t.registry.attach payloadType internalSource n, rack⟩
      | none => t
  | .detach payloadType =>
      let (registry, rack, _) := t.registry.detach t.rack payloadType
      ⟨registry, rack⟩
  | .encode frame kinds => { t with rack := (t.registry.encode t.rack frame kinds).1 }
  | .setFaults n patch => { t with rack := t.rack.setFaults n patch }

def run (t : Station) (calls : List RegistryCall) : Station := calls.foldl step t

end Station

end Simulcast
