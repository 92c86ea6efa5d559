import Simulcast.Registry.Basic

/-!
Encoding through a registry without a sender: the active encoder is called and
its images go into the journal as they are.
-/

namespace Simulcast

namespace Registry

/-- Has the active encoder encode a frame. The answer is missing if there is
no active encoder. -/
def encode (g : Registry) (rack : Rack) (frame : Frame) (kinds : List FrameKind) :
    Rack × Option (Except EncoderFault Unit) :=
  match g.encoder? with
  | none => (rack, none)
  | some handle =>
      match rack.call handle.encoder (.encode frame kinds none) with
      | (rack, .ok images) =>
          (images.foldl (fun r image => r.note (.image image)) rack, some (.ok ()))
      | (rack, .error fault) => (rack, some (.error fault))

end Registry

end Simulcast
