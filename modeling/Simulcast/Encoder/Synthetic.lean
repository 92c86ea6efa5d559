import Simulcast.Encoder.Interface

/-!
Encoders that produce images of fixed sizes, keep a record of what they were
asked and fail on demand. They let a sender run without real codecs: which
calls fail is data, and it may change between any two calls.

A basic encoder has only what every encoder must have. It cannot be released
or asked for a frame in earnest, delivers nothing and shows no record.
-/

namespace Simulcast

/-- The calls an encoder is to fail, and how. -/
structure FaultPlan where
  init : Option EncoderFault := none
  encode : Option EncoderFault := none
  configure : Option EncoderFault := none
  request : Option EncoderFault := none
  release : Option EncoderFault := none
  deriving DecidableEq, Repr

/-- Changes to a fault plan; what is absent stays. -/
structure FaultPlan.Patch where
  init : Option (Option EncoderFault) := none
  encode : Option (Option EncoderFault) := none
  configure : Option (Option EncoderFault) := none
  request : Option (Option EncoderFault) := none
  release : Option (Option EncoderFault) := none
  deriving DecidableEq, Repr

def FaultPlan.patch (f : FaultPlan) (p : FaultPlan.Patch) : FaultPlan where
  init := p.init.getD f.init
  encode := p.encode.getD f.encode
  configure := p.configure.getD f.configure
  request := p.request.getD f.request
  release := p.release.getD f.release

structure EncodeRecord where
  timestamp : UInt32
  resolution : Resolution
  native : Bool
  kinds : List FrameKind
  info : Option SideInfo
  deriving DecidableEq, Repr

structure Blueprint where
  basic : Bool := false
  internalSource : Bool := false
  nativeInput : Bool := false
  faults : FaultPlan := {}
  deriving DecidableEq, Repr

/-- An encoder to hand over: a new one, or one that exists already. -/
inductive EncoderChoice where
  | fresh (blueprint : Blueprint)
  | existing (number : Nat)
  deriving DecidableEq, Repr

/-- The state of an encoder. Records have the latest entry first. -/
structure Encoder where
  basic : Bool := false
  internalSource : Bool := false
  nativeInput : Bool := false
  faults : FaultPlan := {}
  /-- Whether output has somewhere to go. -/
  connected : Bool := false
  /-- The codec of the last successful `init`, until a release. -/
  codec : Option Codec := none
  rates : RateParameters := {}
  inits : Nat := 0
  releases : Nat := 0
  skips : Nat := 0
  encodes : List EncodeRecord := []
  applied : List RateParameters := []
  requests : List (List FrameKind) := []
  deriving Repr

/-- A new encoder. Only the plan for `init` means something to a basic one. -/
def Blueprint.build (b : Blueprint) : Encoder :=
  if b.basic then { basic := true, faults := { init := b.faults.init } }
  else
    { internalSource := b.internalSource
      nativeInput := b.nativeInput
      faults := b.faults }

namespace Encoder

def deltaSize : Nat := 1000

/-- Key frames are four times as large as delta frames. -/
def imageSize : FrameKind → Nat
  | .key => 4 * deltaSize
  | .delta => deltaSize

def name (e : Encoder) : String :=
  if e.basic then "unknown" else "dummy"

/-- Whether a call is reported at all: a basic encoder leaves out those it
does not handle itself. -/
def reports (e : Encoder) : EncoderCall → Bool
  | .release => !e.basic
  | .skip => !e.basic
  | .request _ => !e.basic
  | _ => true

/-- The images for one frame, one per stream in stream order. There are none
without a codec or without somewhere to send them. -/
def images (e : Encoder) (timestamp : UInt32) (kinds : List FrameKind) : List EncodedImage :=
  match e.codec with
  | some codec =>
      if e.connected ∧ ¬ e.basic then
        kinds.zipIdx.map fun (kind, stream) =>
          ⟨kind, imageSize kind, timestamp, codec.resolution, stream⟩
      else []
  | none => []

/-- Ends a call: the images to deliver, unless it was to fail. -/
def outcome (fault : Option EncoderFault) (images : List EncodedImage) :
    Except EncoderFault (List EncodedImage) :=
  match fault with
  | some f => .error f
  | none => .ok images

def recordEncode (e : Encoder) (frame : Frame) (kinds : List FrameKind)
    (info : Option SideInfo) : Encoder :=
  { e with
    encodes :=
      ⟨frame.timestamp, frame.resolution, frame.picture.isNative, kinds, info⟩ :: e.encodes }

/-- Answers a call: the encoder afterwards, and the images it delivers before
the call returns. -/
def perform (e : Encoder) : EncoderCall → Encoder × Except EncoderFault (List EncodedImage)
  | .connect => ({ e with connected := true }, .ok [])
  | .init codec _ _ =>
      let e := { e with inits := e.inits + 1 }
      match e.faults.init with
      | some f => (e, .error f)
      | none => ({ e with codec := some codec }, .ok [])
  | .release =>
      ({ e with releases := e.releases + 1, codec := none }, outcome e.faults.release [])
  | .encode frame kinds info =>
      (e.recordEncode frame kinds info,
        outcome e.faults.encode (e.images frame.timestamp kinds))
  | .skip => ({ e with skips := e.skips + 1 }, .ok [])
  | .configure rates =>
      match e.faults.configure with
      | some f => (e, .error f)
      | none => ({ e with rates := rates, applied := rates :: e.applied }, .ok [])
  | .request kinds =>
      if e.internalSource then
        ({ e with requests := kinds :: e.requests },
          outcome e.faults.request (e.images 0 kinds))
      else (e, .error .unsupported)

end Encoder

end Simulcast
