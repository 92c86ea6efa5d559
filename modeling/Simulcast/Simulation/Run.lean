import Simulcast.Sender.Operation
import Simulcast.Simulation.Options

/-!
A sender driven with gray frames and a scripted network: the network's target
is halved for the middle third of the run, and a key frame is requested on the
last stream at regular intervals. The report tells what the encoder got to
see.
-/

namespace Simulcast.Simulation

namespace Options

def resolution (o : Options) : Resolution := ⟨o.width, o.height⟩

def codecOptions (o : Options) : CodecOptions :=
  match o.kind with
  | .vp8 => .vp8 o.temporalLayers true
  | .vp9 => .vp9 o.temporalLayers 1
  | .h264 => .h264 3000
  | .generic => .generic

def codec (o : Options) : Codec where
  kind := o.kind
  name := o.kind.label
  resolution := o.resolution
  maxFrameRate := o.frameRate
  simulcastStreams := o.streams
  mode := o.mode
  options := o.codecOptions

/-- The frame rate to pace by, at least one. -/
def pace (o : Options) : UInt32 := max o.frameRate 1

def interval (o : Options) : Millis := (1000 / o.pace).toNat

def timestampStep (o : Options) : UInt32 := 90000 / o.pace

/-- The network's target while frame `k` is submitted. -/
def targetAt (o : Options) (k : Nat) : UInt32 :=
  if o.count.toNat / 3 ≤ k ∧ k < 2 * o.count.toNat / 3 then o.bitrate / 2 else o.bitrate

/-- Whether a key frame is requested before frame `k`. -/
def requestsKeyAt (o : Options) (k : Nat) : Bool :=
  decide (0 < o.keyFrameInterval.toNat ∧ 0 < k ∧ k % o.keyFrameInterval.toNat = 0)

end Options

/-- A sender with the codec registered, at time `now`. -/
def start (o : Options) (now : Millis) : Except SendError Sender :=
  let s := Sender.start
    { dropping := some o.dropFrames
      reportsStatistics := true
      blueprints := fun kind => if kind = o.kind then some {} else none } now
  match s.call (.register o.codec 2 1200) with
  | (_, .failed e) => .error e
  | (s, _) => .ok s

/-- Everything that happens for frame `k` before time goes on. Nobody reads the
journal, so it is emptied. -/
def submitFrame (o : Options) (picture : Picture) (s : Sender) (k : Nat) : Sender :=
  let (s, _) := s.call (.feedback ⟨o.targetAt k, 0, 50⟩)
  let s :=
    if o.requestsKeyAt k then (s.call (.requestKey (o.codec.streamCount - 1))).1 else s
  let frame : Frame :=
    { picture := picture
      timestamp := UInt32.ofNat k * o.timestampStep
      renderTime := s.now }
  let (s, _) := s.submit frame none
  s.takeJournal.1

/-- One frame of a simulation in which time is simulated too. -/
def step (o : Options) (picture : Picture) (s : Sender) (k : Nat) : Sender :=
  ((submitFrame o picture s k).advance o.interval).tick.1

/-- What the encoder got to see. -/
structure Report where
  submitted : Nat
  encoded : Nat
  dropped : Nat
  keyFrames : Nat
  streams : Nat
  /-- The bitrate last applied to the encoder. -/
  target : Option UInt32
  deriving DecidableEq, Repr

/-- The number of key frames among the kinds of an encode call. -/
def keyCount (kinds : List FrameKind) : Nat := kinds.countP (· == .key)

/-- The report of a run that ended in `s`. The run has a single encoder. -/
def report (o : Options) (s : Sender) : Report :=
  let e := s.rack.encoder 0
  { submitted := o.count.toNat
    encoded := e.encodes.length
    dropped := e.skips
    keyFrames := e.encodes.foldl (fun n r => n + keyCount r.kinds) 0
    streams := o.codec.streamCount
    target :=
      match s.appliedRates with
      | .ok rates => some rates.targetBitrate
      | .error _ => none }

def Report.text (r : Report) : String :=
  s!"submitted {r.submitted} frames: {r.encoded} encoded, {r.dropped} dropped, "
    ++ s!"{r.keyFrames} key frames over {r.streams} streams\n"
    ++ match r.target with
      | some target => s!"final encoder target: {target.toNat} bps\n"
      | none => ""

def grayPicture (o : Options) : Picture := .planar (PlanarImage.gray o.resolution)

/-- Whether the numbers a run is planned with can be computed: the size of a
frame in 64 bits, and twice the number of frames in 32. -/
def Options.fits (o : Options) : Bool :=
  decide (FrameFits o.width.toNat o.height.toNat ∧ 2 * o.count.toNat < UInt32.size)

/-- How the program ends: its status and what it prints. -/
structure Outcome where
  status : UInt32
  output : String := ""
  complaint : String := ""
  deriving DecidableEq, Repr

def Outcome.ofUsage (e : UsageError) : Outcome where
  status := 1
  complaint := s!"{e.message}\nRun {programName} --help for more information.\n"

def Outcome.ofRegistration (e : SendError) : Outcome where
  status := 1
  complaint := s!"failed to register codec: {e.message}\n"

/-- A run that cannot be planned stops before the first frame. -/
def Outcome.aborted : Outcome where
  status := 101
  complaint := "the numbers of the run are too large\n"

def frames (o : Options) (s : Sender) : Sender :=
  let picture := grayPicture o
  (List.range o.count.toNat).foldl (step o picture) s

def simulate (o : Options) : Outcome :=
  match start o 0 with
  | .error e => .ofRegistration e
  | .ok s =>
      if o.fits then { status := 0, output := (report o (frames o s)).text }
      else .aborted

/-- The program, with time simulated whatever the arguments say of it. -/
def run (arguments : List String) : Outcome :=
  match Request.ofArguments arguments with
  | .error e => .ofUsage e
  | .ok .help => { status := 0, output := helpText ++ "\n" }
  | .ok (.simulate o) => simulate o

end Simulcast.Simulation
